import Calculator.Session
import Calculator.Text.Line

/-!
# The menu

The calculator is operated by lines of text.  It shows a menu and asks for a
choice; the choice to insert an expression asks for the expression next.
Every line is answered by a piece of output, which ends with the question for
the next line, so that nothing is left to say when the input ends.

Lines are trimmed before they are looked at, and after the choice to quit no
line is answered.
-/

namespace Calculator

/-- What the next line is taken for. -/
inductive Question where
  /-- A choice from the menu. -/
  | choice
  /-- An expression. -/
  | expression
  /-- Nothing, since the calculator has quit. -/
  | nothing
  deriving DecidableEq, Repr

/-- The state of the menu between two lines. -/
structure Menu where
  settings : Settings
  session : Session
  question : Question
  deriving DecidableEq

namespace Menu

/-- The choices in print. -/
def choices : String :=
  "0 - insert expression\n1 - print history\n2 - undo\n" ++
    "3 - clear history\n4 - list functions\n9 - quit\n"

/-- The menu of a session, and the question for a choice. -/
def choiceText (session : Session) : String :=
  let current :=
    match session.result with
    | some value => s!"Current value: {Decimal.display value}\n"
    | none => ""
  current ++ choices ++ "> "

/-- What is shown of a history. -/
def historyText (history : History) : String :=
  if history.isEmpty then
    "No logs saved.\n"
  else
    s!"Total logs: {history.size}\n" ++
      String.join (history.toList.map fun entry => entry.text ++ "\n")

/-- What is shown of the functions and the constants. -/
def functionsText : String :=
  let names := ", ".intercalate Operation.functionNames
  s!"Functions: {names}\nConstants: e, pi, phi\n"

/-- What is shown when an expression fails. -/
def failureText (limit : Option Nat) (failure : CalculationError) :
    String :=
  let advice :=
    match failure with
    | .historyFull _ =>
        let capacity :=
          match limit with
          | some limit => s!"History keeps up to {limit} entries\n"
          | none => ""
        capacity ++ "Clear the history (option 3) to continue\n"
    | _ => ""
  s!"Got {failure.report}\n" ++ advice

/-- The menu after an answer, which shows the menu again after a blank
line. -/
def resume (menu : Menu) (session : Session) (answer : String) :
    Menu × String :=
  ({ menu with session := session, question := .choice },
    answer ++ "\n" ++ choiceText session)

/-- Answers an expression. -/
def answerExpression (library : Elementary) (menu : Menu)
    (text : String) : Menu × String :=
  match menu.session.evaluate library text with
  | .ok (value, session) =>
      menu.resume session s!"Result: {Decimal.display value}\n"
  | .error failure =>
      menu.resume menu.session
        (failureText menu.session.history.limit failure)

/-- Answers a choice. -/
def answerChoice (menu : Menu) (choice : String) : Menu × String :=
  match choice with
  | "0" =>
      ({ menu with question := .expression }, menu.settings.prompt)
  | "1" => menu.resume menu.session (historyText menu.session.history)
  | "2" =>
      match menu.session.undo with
      | some session => menu.resume session ""
      | none =>
          menu.resume menu.session
            "Failed to undo operation (No logs saved).\n"
  | "3" => menu.resume menu.session.clear "Cleared history.\n"
  | "4" => menu.resume menu.session functionsText
  | "9" => ({ menu with question := .nothing }, "")
  | _ => menu.resume menu.session s!"Unknown option '{choice}'\n"

/-- Answers a line. -/
def answer (library : Elementary) (menu : Menu) (line : List Char) :
    Menu × String :=
  let text := String.ofList (Text.trim line)
  match menu.question with
  | .choice => menu.answerChoice text
  | .expression => menu.answerExpression library text
  | .nothing => (menu, "")

/-- The menu at its start. -/
def start (settings : Settings) : Menu where
  settings := settings
  session := .start settings
  question := .choice

/-- What is shown at the start. -/
def greeting (settings : Settings) : String :=
  "Welcome to the calculator!\n" ++ choiceText (.start settings)

/-- What is shown for lines, one after the other. -/
def answers (library : Elementary) (menu : Menu) :
    List (List Char) → String
  | [] => ""
  | line :: lines =>
      let (next, text) := menu.answer library line
      text ++ answers library next lines

/-- All that is shown for a text of input. -/
def run (library : Elementary) (settings : Settings) (input : String) :
    String :=
  greeting settings ++
    (start settings).answers library (Text.lines input.toList)

end Menu

end Calculator

import Calculator.Menu
import Calculator.Proofs.Evaluation.Structure
import Calculator.Proofs.Session.Log

/-!
# The menu talks about one session

The lines of the input are a row of requests: most requests take one line, and
an expression takes the line after its choice.  A conversation is what a
session shows while it is given the requests one after the other.  It is
described here without the state of the menu: by what is shown before a
choice, by the reply to each request and the session after it, and by how a
conversation ends.

The main result says that the menu shows exactly such a conversation, with a
session of the limit and the prompt that the environment gives, and that
operating it line by line comes to an end.
-/

namespace Calculator

/-- What the user asks for. -/
inductive Request where
  /-- To evaluate an expression, if the input goes on with one. -/
  | insert (text : Option String)
  | showHistory
  | undo
  | clear
  | listFunctions
  | quit
  /-- A choice that the menu does not offer. -/
  | unknown (choice : String)
  deriving DecidableEq, Repr

/-- The requests that trimmed lines make, up to the one to quit. -/
def Request.ofLines : List String → List Request
  | [] => []
  | ["0"] => [.insert none]
  | "0" :: text :: lines => .insert (some text) :: ofLines lines
  | "1" :: lines => .showHistory :: ofLines lines
  | "2" :: lines => .undo :: ofLines lines
  | "3" :: lines => .clear :: ofLines lines
  | "4" :: lines => .listFunctions :: ofLines lines
  | "9" :: _ => [.quit]
  | choice :: lines => .unknown choice :: ofLines lines

/-- A choice that the menu does not offer is a request of its own. -/
theorem Request.ofLines_cons_of_not_mem {choice : String}
    (unoffered : choice ∉ ["0", "1", "2", "3", "4", "9"])
    (lines : List String) :
    ofLines (choice :: lines) = .unknown choice :: ofLines lines := by
  simp only [List.mem_cons, List.not_mem_nil, or_false, not_or]
    at unoffered
  obtain ⟨notInsert, notShow, notUndo, notClear, notList, notQuit⟩ :=
    unoffered
  rw [ofLines]
  · exact fun isInsert => absurd isInsert notInsert
  · exact fun _ _ isInsert => absurd isInsert notInsert
  · exact notShow
  · exact notUndo
  · exact notClear
  · exact notList
  · exact notQuit

/-- The lines of a text, without the blanks at their ends. -/
def Text.trimmedLines (text : List Char) : List String :=
  (lines text).map fun line => String.ofList (trim line)

/-! ## Conversations -/

/-- What a session shows before a choice: its result, if it has one, and the
menu. -/
inductive Shows (session : Session) : String → Prop
  | result {value : Float} (found : session.result = some value) :
      Shows session
        ("Current value: " ++ Decimal.display value ++ "\n" ++
          Menu.choices ++ "> ")
  | noResult (absent : session.result = none) :
      Shows session (Menu.choices ++ "> ")

/-- An entry of the history on a line of its own. -/
def Entry.line (entry : Entry) : String :=
  "Equation: " ++ entry.expression ++ ", Result: " ++
    Decimal.display entry.result ++ "\n"

/-- The reply of a session to a request, and the session after it. -/
inductive Replies (library : Elementary) (prompt : String)
    (session : Session) : Request → String → Session → Prop
  /-- An expression with a value. -/
  | value {text : String} {value : Float} {next : Session}
      (evaluated : session.evaluate library text = .ok (value, next)) :
      Replies library prompt session (.insert (some text))
        (prompt ++ "Result: " ++ Decimal.display value ++ "\n") next
  /-- An expression whose value the history has no room for. -/
  | refused {text : String} {limit : Nat}
      (full :
        session.evaluate library text = .error (.historyFull limit)) :
      Replies library prompt session (.insert (some text))
        (prompt ++ "Got " ++ (CalculationError.historyFull limit).report ++
          "\n" ++ "History keeps up to " ++ toString limit ++ " entries\n" ++
          "Clear the history (option 3) to continue\n")
        session
  /-- Any other expression without a value. -/
  | failed {text : String} {failure : CalculationError}
      (fails : session.evaluate library text = .error failure)
      (room : ∀ limit, failure ≠ .historyFull limit) :
      Replies library prompt session (.insert (some text))
        (prompt ++ "Got " ++ failure.report ++ "\n") session
  | noEntries (nothing : session.history.toList = []) :
      Replies library prompt session .showHistory "No logs saved.\n" session
  /-- The entries, the oldest one first, under their number. -/
  | entries (something : session.history.toList ≠ []) :
      Replies library prompt session .showHistory
        ("Total logs: " ++ toString session.history.toList.length ++ "\n" ++
          String.join (session.history.toList.map Entry.line))
        session
  | undone {next : Session} (undone : session.undo = some next) :
      Replies library prompt session .undo "" next
  | nothingToUndo (nothing : session.history.toList = []) :
      Replies library prompt session .undo
        "Failed to undo operation (No logs saved).\n" session
  | cleared :
      Replies library prompt session .clear "Cleared history.\n"
        session.clear
  | functions :
      Replies library prompt session .listFunctions
        ("Functions: " ++ ", ".intercalate Operation.functionNames ++ "\n" ++
          "Constants: e, pi, phi\n")
        session
  | unknown {choice : String} :
      Replies library prompt session (.unknown choice)
        ("Unknown option '" ++ choice ++ "'\n") session

/-- What is shown from a choice on, while a session is given requests.  Every
reply is followed by an empty line. -/
inductive Conversation (library : Elementary) (prompt : String) :
    Session → List Request → String → Prop
  /-- The input ends where a choice is asked for. -/
  | inputEnds {session : Session} {shown : String}
      (shows : Shows session shown) :
      Conversation library prompt session [] shown
  /-- The input ends where an expression is asked for. -/
  | expressionMissing {session : Session} {shown : String}
      (shows : Shows session shown) :
      Conversation library prompt session [.insert none] (shown ++ prompt)
  | quit {session : Session} {shown : String}
      (shows : Shows session shown) :
      Conversation library prompt session [.quit] shown
  | reply {session next : Session} {request : Request}
      {requests : List Request} {shown reply rest : String}
      (shows : Shows session shown)
      (replies : Replies library prompt session request reply next)
      (others : Conversation library prompt next requests rest) :
      Conversation library prompt session (request :: requests)
        (shown ++ (reply ++ "\n" ++ rest))

/-- The menu is operated line by line, until it asks for nothing more or the
input ends, and shows the given text. -/
inductive Menu.Operated (library : Elementary) :
    Menu → List (List Char) → String → Prop
  | quit {menu : Menu} {lines : List (List Char)}
      (asksNothing : menu.question = .nothing) :
      Operated library menu lines ""
  | inputEnds {menu : Menu} : Operated library menu [] ""
  | line {menu next : Menu} {line : List Char}
      {lines : List (List Char)} {text rest : String}
      (asks : menu.question ≠ .nothing)
      (answered : menu.answer library line = (next, text))
      (others : Operated library next lines rest) :
      Operated library menu (line :: lines) (text ++ rest)

variable {library : Elementary} {prompt : String} {session : Session}

/-! ## A conversation is determined by its requests -/

theorem Shows.unique {first second : String}
    (firstShows : Shows session first)
    (secondShows : Shows session second) : first = second := by
  cases firstShows with
  | result found =>
      cases secondShows with
      | result other =>
          rw [found, Option.some.injEq] at other
          rw [other]
      | noResult absent => simp [found] at absent
  | noResult absent =>
      cases secondShows with
      | result found => simp [absent] at found
      | noResult _ => rfl

/-- There is something to undo exactly where there are entries. -/
theorem Session.undo_of_eq_nil (nothing : session.history.toList = []) :
    session.undo = none := by
  rw [undo, if_pos (History.isEmpty_eq_true_iff.mpr nothing)]

theorem Replies.unique {request : Request} {first second : String}
    {firstNext secondNext : Session}
    (firstReplies :
      Replies library prompt session request first firstNext)
    (secondReplies :
      Replies library prompt session request second secondNext) :
    first = second ∧ firstNext = secondNext := by
  cases firstReplies with
  | value evaluated =>
      cases secondReplies with
      | value other =>
          rw [evaluated, Except.ok.injEq, Prod.mk.injEq] at other
          obtain ⟨rfl, rfl⟩ := other
          exact ⟨rfl, rfl⟩
      | refused other => simp [evaluated] at other
      | failed other _ => simp [evaluated] at other
  | refused full =>
      cases secondReplies with
      | value other => simp [full] at other
      | refused other =>
          rw [full, Except.error.injEq,
            CalculationError.historyFull.injEq] at other
          rw [other]
          exact ⟨rfl, rfl⟩
      | failed other room =>
          rw [full, Except.error.injEq] at other
          exact absurd other.symm (room _)
  | failed fails room =>
      cases secondReplies with
      | value other => simp [fails] at other
      | refused other =>
          rw [fails, Except.error.injEq] at other
          exact absurd other (room _)
      | failed other _ =>
          rw [fails, Except.error.injEq] at other
          rw [other]
          exact ⟨rfl, rfl⟩
  | noEntries nothing =>
      cases secondReplies with
      | noEntries _ => exact ⟨rfl, rfl⟩
      | entries something => exact absurd nothing something
  | entries something =>
      cases secondReplies with
      | noEntries nothing => exact absurd nothing something
      | entries _ => exact ⟨rfl, rfl⟩
  | undone undone =>
      cases secondReplies with
      | undone other =>
          rw [undone, Option.some.injEq] at other
          exact ⟨rfl, other⟩
      | nothingToUndo nothing =>
          simp [Session.undo_of_eq_nil nothing] at undone
  | nothingToUndo nothing =>
      cases secondReplies with
      | undone undone => simp [Session.undo_of_eq_nil nothing] at undone
      | nothingToUndo _ => exact ⟨rfl, rfl⟩
  | cleared =>
      cases secondReplies
      exact ⟨rfl, rfl⟩
  | functions =>
      cases secondReplies
      exact ⟨rfl, rfl⟩
  | unknown =>
      cases secondReplies
      exact ⟨rfl, rfl⟩

theorem Conversation.unique {requests : List Request}
    {first second : String}
    (firstHeld : Conversation library prompt session requests first)
    (secondHeld : Conversation library prompt session requests second) :
    first = second := by
  induction firstHeld generalizing second with
  | inputEnds shows =>
      cases secondHeld with
      | inputEnds others => exact shows.unique others
  | expressionMissing shows =>
      cases secondHeld with
      | expressionMissing others => rw [shows.unique others]
      | reply _ replies _ => cases replies
  | quit shows =>
      cases secondHeld with
      | quit others => exact shows.unique others
      | reply _ replies _ => cases replies
  | reply shows replies _ ih =>
      cases secondHeld with
      | expressionMissing _ => cases replies
      | quit _ => cases replies
      | reply otherShows otherReplies others =>
          obtain ⟨rfl, rfl⟩ := replies.unique otherReplies
          rw [shows.unique otherShows, ih others]

/-! ## What the menu shows -/

namespace Menu

theorem shows_choiceText (session : Session) :
    Shows session (choiceText session) := by
  cases found : session.result with
  | none =>
      have text : choiceText session = choices ++ "> " := by
        simp [choiceText, found]
      exact text ▸ .noResult found
  | some value =>
      have text : choiceText session =
          "Current value: " ++ Decimal.display value ++ "\n" ++ choices ++
            "> " := by
        rw [choiceText, found]
        rfl
      exact text ▸ .result found

/-- A session that cannot record a value says so by its own limit. -/
theorem limit_of_evaluate_eq_historyFull {text : String} {limit : Nat}
    (full : session.evaluate library text = .error (.historyFull limit)) :
    session.history.limit = some limit := by
  rw [Session.evaluate, Outcome.bind_eq_error_iff] at full
  rcases full with failed | ⟨value, -, refused⟩
  · exact absurd failed (calculate_ne_of_neverReported (.historyFull limit))
  · rcases Outcome.bind_eq_error_iff.mp refused with refused | ⟨_, -, done⟩
    · rw [History.append] at refused
      split at refused
      · next other reached =>
          cases refused
          exact (History.full?_eq_some_iff.mp reached).1
      · cases refused
    · cases done

theorem failureText_historyFull (limit : Nat) :
    failureText (some limit) (.historyFull limit) =
      "Got " ++ (CalculationError.historyFull limit).report ++ "\n" ++
        "History keeps up to " ++ toString limit ++ " entries\n" ++
        "Clear the history (option 3) to continue\n" := by
  simp only [failureText, String.append_assoc]
  rfl

theorem failureText_of_ne {failure : CalculationError}
    (room : ∀ limit, failure ≠ .historyFull limit) (limit : Option Nat) :
    failureText limit failure = "Got " ++ failure.report ++ "\n" := by
  rw [failureText, String.append_empty]
  · rfl
  · exact room

/-- The reply to an expression, after the prompt. -/
theorem exists_replies_answerExpression (menu : Menu) (text : String) :
    ∃ reply next,
      menu.answerExpression library text = menu.resume next reply ∧
        Replies library prompt menu.session (.insert (some text))
          (prompt ++ reply) next := by
  rw [answerExpression]
  cases outcome : menu.session.evaluate library text with
  | ok done =>
      obtain ⟨value, next⟩ := done
      refine ⟨_, next, rfl, ?_⟩
      have replies : Replies library prompt menu.session
          (.insert (some text))
          (prompt ++ "Result: " ++ Decimal.display value ++ "\n") next :=
        .value outcome
      rwa [String.append_assoc, String.append_assoc] at replies
  | error failure =>
      refine ⟨_, menu.session, rfl, ?_⟩
      by_cases full : ∃ limit, failure = .historyFull limit
      · obtain ⟨limit, rfl⟩ := full
        rw [limit_of_evaluate_eq_historyFull outcome,
          failureText_historyFull]
        simpa only [String.append_assoc] using
          (.refused outcome : Replies library prompt menu.session _ _ _)
      · have room := not_exists.mp full
        rw [failureText_of_ne room]
        simpa only [String.append_assoc] using
          (.failed outcome room :
            Replies library prompt menu.session _ _ _)

theorem historyText_of_eq_nil {history : History}
    (nothing : history.toList = []) :
    historyText history = "No logs saved.\n" := by
  rw [historyText, if_pos (History.isEmpty_eq_true_iff.mpr nothing)]

theorem historyText_of_ne_nil {history : History}
    (something : history.toList ≠ []) :
    historyText history =
      "Total logs: " ++ toString history.toList.length ++ "\n" ++
        String.join (history.toList.map Entry.line) := by
  have lines : (fun entry => Entry.text entry ++ "\n") = Entry.line := by
    funext entry
    simp only [Entry.text, Entry.line, String.append_assoc]
    rfl
  rw [historyText, if_neg (mt History.isEmpty_eq_true_iff.mp something),
    lines, History.length_toList]
  rfl

/-- A choice other than to insert an expression and to quit is a request of
one line, and the menu replies to it. -/
theorem exists_replies_answerChoice (menu : Menu) {choice : String}
    (notInsert : choice ≠ "0") (notQuit : choice ≠ "9") :
    ∃ request reply next,
      (∀ lines, Request.ofLines (choice :: lines) =
          request :: Request.ofLines lines) ∧
        menu.answerChoice choice = menu.resume next reply ∧
          Replies library prompt menu.session request reply next := by
  rw [answerChoice.eq_def]
  split
  · exact absurd rfl notInsert
  · refine ⟨.showHistory, _, _, fun _ => rfl, rfl, ?_⟩
    by_cases nothing : menu.session.history.toList = []
    · rw [historyText_of_eq_nil nothing]
      exact .noEntries nothing
    · rw [historyText_of_ne_nil nothing]
      exact .entries nothing
  · cases outcome : menu.session.undo with
    | none =>
        refine ⟨.undo, _, _, fun _ => rfl, rfl, .nothingToUndo ?_⟩
        rw [Session.undo] at outcome
        split at outcome
        · next empty => exact History.isEmpty_eq_true_iff.mp empty
        · cases outcome
    | some next => exact ⟨.undo, _, _, fun _ => rfl, rfl, .undone outcome⟩
  · exact ⟨.clear, _, _, fun _ => rfl, rfl, .cleared⟩
  · exact ⟨.listFunctions, _, _, fun _ => rfl, rfl, .functions⟩
  · exact absurd rfl notQuit
  · next notShow notUndo notClear notList _ =>
      refine ⟨.unknown choice, _, _, ?_, rfl, .unknown⟩
      apply Request.ofLines_cons_of_not_mem
      simp only [List.mem_cons, List.not_mem_nil, or_false, not_or]
      exact ⟨notInsert, notShow, notUndo, notClear, notList, notQuit⟩

/-! ## A whole run -/

theorem answers_cons (menu : Menu) (line : List Char)
    (lines : List (List Char)) :
    menu.answers library (line :: lines) =
      (menu.answer library line).2 ++
        (menu.answer library line).1.answers library lines := rfl

/-- A menu that asks for nothing shows nothing. -/
theorem answers_of_question_eq_nothing {menu : Menu}
    (asksNothing : menu.question = .nothing) (lines : List (List Char)) :
    menu.answers library lines = "" := by
  induction lines with
  | nil => rfl
  | cons line lines ih => simp [answers, answer, asksNothing, ih]

/-- Answering the lines one after the other is operating the menu. -/
theorem operated_answers (menu : Menu) (lines : List (List Char)) :
    Operated library menu lines (menu.answers library lines) := by
  by_cases asksNothing : menu.question = .nothing
  · rw [answers_of_question_eq_nothing asksNothing]
    exact .quit asksNothing
  · induction lines generalizing menu with
    | nil => exact .inputEnds
    | cons line lines ih =>
        rw [answers_cons]
        refine .line asksNothing (Prod.eta _).symm ?_
        by_cases quits : (menu.answer library line).1.question = .nothing
        · rw [answers_of_question_eq_nothing quits]
          exact .quit quits
        · exact ih _ quits

/-- What is shown from the question for a choice on, after the menu, and from
the question for an expression on, after the menu and the prompt, is a
conversation about the lines that are left. -/
theorem conversation_answers (settings : Settings) (session : Session)
    (lines : List (List Char)) :
    let texts := lines.map fun line => String.ofList (Text.trim line)
    Conversation library settings.prompt session (Request.ofLines texts)
        (choiceText session ++
          answers library ⟨settings, session, .choice⟩ lines) ∧
      Conversation library settings.prompt session
        (Request.ofLines ("0" :: texts))
        (choiceText session ++ (settings.prompt ++
          answers library ⟨settings, session, .expression⟩ lines)) := by
  induction lines generalizing session with
  | nil =>
      have shows := shows_choiceText session
      constructor
      · rw [answers, String.append_empty]
        exact .inputEnds shows
      · rw [answers, String.append_empty]
        exact .expressionMissing shows
  | cons line lines ih =>
      have shows := shows_choiceText session
      simp only [List.map_cons]
      generalize texted : String.ofList (Text.trim line) = text
      constructor
      · by_cases isInsert : text = "0"
        · have asksExpression :
              answers library ⟨settings, session, .choice⟩
                  (line :: lines) =
                settings.prompt ++
                  answers library ⟨settings, session, .expression⟩
                    lines := by
            rw [answers, answer, texted, isInsert]
            rfl
          rw [asksExpression, isInsert]
          exact (ih session).2
        by_cases isQuit : text = "9"
        · have quits :
              answers library ⟨settings, session, .choice⟩
                (line :: lines) = "" := by
            rw [answers, answer, texted, isQuit]
            exact answers_of_question_eq_nothing rfl lines
          rw [quits, String.append_empty, isQuit]
          exact .quit shows
        · obtain ⟨request, reply, next, requests, answered, replies⟩ :=
            @exists_replies_answerChoice library settings.prompt
              ⟨settings, session, .choice⟩ text isInsert isQuit
          have shown :
              answers library ⟨settings, session, .choice⟩
                  (line :: lines) =
                reply ++ "\n" ++ (choiceText next ++
                  answers library ⟨settings, next, .choice⟩ lines) := by
            rw [answers, answer, texted, ← String.append_assoc]
            simp only [answered, resume]
          rw [shown, requests]
          exact .reply shows replies (ih next).1
      · obtain ⟨reply, next, answered, replies⟩ :=
          @exists_replies_answerExpression library settings.prompt
            ⟨settings, session, .expression⟩ text
        have shown :
            settings.prompt ++
                answers library ⟨settings, session, .expression⟩
                  (line :: lines) =
              settings.prompt ++ reply ++ "\n" ++ (choiceText next ++
                answers library ⟨settings, next, .choice⟩ lines) := by
          rw [answers, answer, texted]
          simp only [answered, resume, String.append_assoc]
        rw [shown, Request.ofLines]
        exact .reply shows replies (ih next).1

/-- A run shows a greeting, the menu, and what the lines are answered. -/
theorem run_eq_append (settings : Settings) (input : String) :
    run library settings input =
      "Welcome to the calculator!\n" ++
        (choiceText (.start settings) ++
          (start settings).answers library (Text.lines input.toList)) :=
  String.append_assoc

/-- For every input and every environment, operating the menu line by line
comes to an end, and what it shows after the greeting is the conversation
that the trimmed lines ask for, with a new session of the limit and the
prompt of the environment, and nothing else. -/
theorem run_eq_iff_conversation (library : Elementary)
    (limit prompt : Option String) (input : String) :
    let settings := Settings.ofEnvironment limit prompt
    let lines := Text.lines input.toList
    Operated library (start settings) lines
        ((start settings).answers library lines) ∧
      ∀ output,
        run library settings input = output ↔
          ∃ shown,
            output = "Welcome to the calculator!\n" ++ shown ∧
              Conversation library settings.prompt (Session.start settings)
                (Request.ofLines (Text.trimmedLines input.toList))
                shown := by
  intro settings lines
  have held :
      Conversation library settings.prompt (.start settings)
        (Request.ofLines (Text.trimmedLines input.toList))
        (choiceText (.start settings) ++
          (start settings).answers library lines) :=
    (conversation_answers settings (.start settings) lines).1
  constructor
  · exact operated_answers (start settings) lines
  · intro output
    rw [run_eq_append]
    constructor
    · intro isOutput
      exact ⟨_, isOutput.symm, held⟩
    · intro ⟨shown, isOutput, others⟩
      rw [isOutput, others.unique held]

end Menu

end Calculator

import Calculator.Menu

/-!
# The command line

The menu on standard input and output.  The history limit and the prompt are
taken from the environment.
-/

namespace Calculator

/-- Writes a text at once. -/
def write (text : String) : IO Unit := do
  let output ← IO.getStdout
  output.putStr text
  output.flush

/-- Answers line by line, until the input ends or the user quits. -/
partial def converse (menu : Menu) : IO Unit := do
  if menu.question = .nothing then
    return
  let line ← (← IO.getStdin).getLine
  if line.isEmpty then
    return
  let (next, answer) := menu.answer .system line.toList
  write answer
  converse next

end Calculator

/-- Runs the calculator. -/
def main : IO Unit := do
  let settings :=
    Calculator.Settings.ofEnvironment
      (← IO.getEnv "SHUNT_CALC_HISTORY_LIMIT")
      (← IO.getEnv "SHUNT_CALC_PROMPT")
  Calculator.write (Calculator.Menu.greeting settings)
  Calculator.converse (.start settings)

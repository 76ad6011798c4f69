import Calculator.Expression.Value
import Calculator.History
import Calculator.Settings

/-!
# Sessions

A session evaluates expressions one after the other and keeps a history of
those that had a value.  An expression that fails, or whose value the history
refuses, leaves the session as it was.
-/

namespace Calculator

/-- The state of a calculator between two commands. -/
structure Session where
  /-- The calculations so far. -/
  history : History
  deriving DecidableEq

namespace Session

/-- The session at its start. -/
def start (settings : Settings) : Session :=
  ⟨.empty settings.historyLimit⟩

/-- The value of the latest calculation. -/
def result (session : Session) : Option Float :=
  session.history.last?.map Entry.result

/-- Evaluates an expression and records its value. -/
def evaluate (library : Elementary) (session : Session) (text : String) :
    Except CalculationError (Float × Session) := do
  let value ← calculate library text
  let history ← session.history.append ⟨text, value⟩
  return (value, ⟨history⟩)

/-- Takes the latest calculation back.  Without one there is nothing to take
back. -/
def undo (session : Session) : Option Session :=
  if session.history.isEmpty then
    none
  else
    some ⟨session.history.removeLast⟩

/-- Takes all calculations back. -/
def clear (session : Session) : Session := ⟨session.history.clear⟩

end Session

end Calculator

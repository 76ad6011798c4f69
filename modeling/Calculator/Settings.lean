import Calculator.Decimal.Basic
import Calculator.Text.Blank

/-!
# Settings

A calculator has a limit for its history, which may be absent, and a prompt
for expressions.  Both can be given as texts by the environment.  A limit is
a count of at least one that fits into 64 bits, written in digits with an
optional plus sign and blanks around it; any other text is ignored.  An empty
prompt is ignored too.
-/

namespace Calculator

-- Powers of natural numbers are the ones of the core library, also in a
-- module that knows of others.
attribute [local instance (high)] instPowNat

/-- The settings of a calculator. -/
structure Settings where
  /-- How many entries the history may hold, if it is limited. -/
  historyLimit : Option Nat
  /-- What asks for an expression. -/
  prompt : String
  deriving DecidableEq, Repr

namespace Settings

/-- The settings where nothing is given. -/
def standard : Settings where
  historyLimit := none
  prompt := "Insert expression: "

/-- A text without the plus sign at its head, if there is one. -/
def withoutPlus : List Char → List Char
  | '+' :: text => text
  | text => text

/-- The limit that a text spells, if it spells one. -/
def limitOf? (text : String) : Option Nat :=
  let digits := withoutPlus (Text.trim text.toList)
  let limit := Decimal.ofDigits digits
  if digits ≠ [] ∧ digits.all Char.isDigit ∧
      0 < limit ∧ limit < 2 ^ (64 : Nat) then
    some limit
  else
    none

/-- The settings that two texts of the environment give: one for the limit
of the history and one for the prompt. -/
def ofEnvironment (limit prompt : Option String) : Settings where
  historyLimit := limit.bind limitOf?
  prompt := (prompt.filter (· ≠ "")).getD standard.prompt

/-- The settings with another limit for the history. -/
def withHistoryLimit (settings : Settings) (limit : Nat) : Settings :=
  { settings with historyLimit := some limit }

/-- The settings with another prompt. -/
def withPrompt (settings : Settings) (prompt : String) : Settings :=
  { settings with prompt := prompt }

@[simp]
theorem ofEnvironment_none : ofEnvironment none none = standard := rfl

@[simp]
theorem historyLimit_ofEnvironment (limit prompt : Option String) :
    (ofEnvironment limit prompt).historyLimit = limit.bind limitOf? :=
  rfl

end Settings

end Calculator

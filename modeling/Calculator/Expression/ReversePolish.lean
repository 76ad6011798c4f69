import Calculator.Error
import Calculator.Expression.Token

/-!
# Reverse Polish order

In reverse Polish order every operation stands after its operands, and no
brackets are needed.  Tokens are brought into this order one by one.  Operands
pass at once.  An operator or a function first releases the waiting ones that
bind at least as tightly, and then waits itself; operations of the same
priority are therefore left-associative.  A closing bracket releases
everything that waits inside its pair.

What waits is kept apart for every open bracket: nothing outside a pair of
brackets is released inside.
-/

namespace Calculator

/-- The state between two tokens. -/
structure Conversion where
  /-- The tokens that have been released. -/
  released : Array Token
  /-- The operators and functions that wait inside the innermost open
  bracket, the latest first. -/
  waiting : List Symbol
  /-- Those that wait around each open bracket, the innermost bracket
  first. -/
  enclosing : List (List Symbol)

namespace Conversion

/-- Before the first token. -/
def start : Conversion := ⟨#[], [], []⟩

/-- Lets tokens pass. -/
def release (conversion : Conversion) (symbols : List Symbol) :
    Conversion :=
  { conversion with
    released := conversion.released ++ symbols.map Token.symbol }

@[simp]
theorem toList_released_release (conversion : Conversion)
    (symbols : List Symbol) :
    (conversion.release symbols).released.toList =
      conversion.released.toList ++ symbols.map Token.symbol := by
  simp [release]

/-- Takes in the next operator or function. -/
def await (conversion : Conversion) (symbol : Symbol) : Conversion :=
  let binds (other : Symbol) : Bool := symbol.priority ≤ other.priority
  { conversion.release (conversion.waiting.takeWhile binds) with
    waiting := symbol :: conversion.waiting.dropWhile binds }

/-- Takes in the next token. -/
def push (conversion : Conversion) (token : Token) :
    Except CalculationError Conversion :=
  match token with
  | .number _ =>
      .ok { conversion with released := conversion.released.push token }
  | .symbol ⟨.constant, _⟩ =>
      .ok { conversion with released := conversion.released.push token }
  | .symbol symbol => .ok (conversion.await symbol)
  | .openBracket =>
      .ok { conversion with
        waiting := []
        enclosing := conversion.waiting :: conversion.enclosing }
  | .closeBracket =>
      match conversion.enclosing with
      | [] => .error .unmatchedBracket
      | around :: enclosing =>
          .ok { conversion.release conversion.waiting with
            waiting := around
            enclosing := enclosing }

@[simp]
theorem push_number (conversion : Conversion) (value : Float) :
    conversion.push (.number value) =
      .ok { conversion with
        released := conversion.released.push (.number value) } :=
  rfl

@[simp]
theorem push_constant (conversion : Conversion) (operation : Operation) :
    conversion.push (.constant operation) =
      .ok { conversion with
        released := conversion.released.push (.constant operation) } :=
  rfl

@[simp]
theorem push_operator (conversion : Conversion) (operation : Operation) :
    conversion.push (.operator operation) =
      .ok (conversion.await ⟨.operator, operation⟩) :=
  rfl

@[simp]
theorem push_function (conversion : Conversion) (operation : Operation) :
    conversion.push (.function operation) =
      .ok (conversion.await ⟨.function, operation⟩) :=
  rfl

@[simp]
theorem push_openBracket (conversion : Conversion) :
    conversion.push .openBracket =
      .ok { conversion with
        waiting := []
        enclosing := conversion.waiting :: conversion.enclosing } :=
  rfl

/-- A closing bracket fails exactly where no bracket is open. -/
theorem push_closeBracket_of_enclosing_eq_nil {conversion : Conversion}
    (outermost : conversion.enclosing = []) :
    conversion.push .closeBracket = .error .unmatchedBracket := by
  simp [push, outermost]

theorem push_closeBracket_of_enclosing_eq_cons {conversion : Conversion}
    {around : List Symbol} {enclosing : List (List Symbol)}
    (inside : conversion.enclosing = around :: enclosing) :
    conversion.push .closeBracket =
      .ok { conversion.release conversion.waiting with
        waiting := around
        enclosing := enclosing } := by
  simp [push, inside]

/-- Ends the row of tokens. -/
def finish (conversion : Conversion) :
    Except CalculationError (List Token) :=
  if conversion.enclosing.isEmpty then
    .ok (conversion.release conversion.waiting).released.toList
  else
    .error .unmatchedBracket

end Conversion

/-- Brings tokens into reverse Polish order. -/
def toReversePolish (tokens : List Token) :
    Except CalculationError (List Token) := do
  let conversion ← tokens.foldlM Conversion.push Conversion.start
  conversion.finish

end Calculator

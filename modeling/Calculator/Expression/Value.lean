import Calculator.Expression.ReversePolish
import Calculator.Expression.Tokens
import Calculator.Operation.Apply

/-!
# The value of an expression

Tokens in reverse Polish order are evaluated with a stack of values: a
number or a constant is put on top, and an operation takes its operands from
the top and puts its result there.  The action of the operation alone counts
here, not the role in which it is used.

Results that are closer to zero than `1e-13` are noise, and become zero.
-/

namespace Calculator

/-- Results below this magnitude are taken for zero. -/
def negligible : Float := 1e-13

/-- A number without noise: positive zero if it is negligible. -/
def withoutNoise (number : Float) : Float :=
  if number.abs < negligible then 0 else number

/-- Replaces the operands on top of the stack by the result of an
operation. -/
def applyOnStack (library : Elementary) (values : List Float)
    (operation : Operation) : Except CalculationError (List Float) :=
  match operation, values with
  | .constant constant, values => .ok (constant.value :: values)
  | .unary unary, argument :: values =>
      (unary.apply library argument).map (withoutNoise · :: values)
  | .binary binary, second :: first :: values =>
      (binary.apply library first second).map (withoutNoise · :: values)
  | .binary binary, [_] => .error (.missingSecondArgument binary.name)
  | .unary unary, [] => .error (.excessOperator unary.name)
  | .binary binary, [] => .error (.excessOperator binary.name)

/-- Takes in the next token. -/
def pushValue (library : Elementary) (values : List Float) :
    Token → Except CalculationError (List Float)
  | .number value => .ok (value :: values)
  | .symbol used => applyOnStack library values used.operation
  | .openBracket => .error .unmatchedBracket
  | .closeBracket => .error .unmatchedBracket

@[simp]
theorem pushValue_number (library : Elementary) (values : List Float)
    (value : Float) :
    pushValue library values (.number value) = .ok (value :: values) :=
  rfl

/-- The role in which an operation is used does not matter to its value. -/
@[simp]
theorem pushValue_symbol (library : Elementary) (values : List Float)
    (role : Role) (operation : Operation) :
    pushValue library values (.symbol ⟨role, operation⟩) =
      applyOnStack library values operation :=
  rfl

/-- The only value on the stack. -/
def onlyValue : List Float → Except CalculationError Float
  | [] => .error .noValue
  | [value] => .ok (withoutNoise value)
  | values => .error (.tooManyValues values.length)

/-- The value of tokens in reverse Polish order. -/
def evaluate (library : Elementary) (tokens : List Token) :
    Except CalculationError Float := do
  let values ← tokens.foldlM (pushValue library) []
  onlyValue values

/-- The value of the text of an expression. -/
def calculate (library : Elementary) (text : String) :
    Except CalculationError Float := do
  let tokens ← tokenize text
  let ordered ← toReversePolish tokens
  evaluate library ordered

end Calculator

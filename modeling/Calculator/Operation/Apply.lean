import Calculator.Binary64.Integral
import Calculator.Elementary
import Calculator.Error
import Calculator.Operation.Basic

/-!
# Applying an operation

An operation is applied to as many numbers as it has operands.  Where it is
not defined the application fails with an error that names the operation and
the operands; a square root is not defined at zero here, and neither is a
logarithm.

The factorial is the product of the numbers from its argument down to two,
each product rounded.  The first argument whose factorial is too large is
171, and the product stops where it becomes infinite.
-/

namespace Calculator

-- Powers of natural numbers are the ones of the core library, also in a
-- module that knows of others.
attribute [local instance (high)] instPowNat

/-- The value of a constant. -/
def Constant.value : Constant → Float
  | .e => 2.718281828459045
  | .pi => 3.141592653589793
  | .phi => 1.618033988749895

/-- The product of a number with all numbers from the given one down to two,
unless it becomes infinite on the way. -/
def descendingProduct : Nat → Float → Option Float
  | 0, product => some product
  | 1, product => some product
  | number + 2, product =>
      let next := product * Binary64.ofNat (number + 2)
      if next.isInf then none else descendingProduct (number + 1) next

/-- The factorial of a natural number. -/
def factorial (argument : Float) : Except CalculationError Float :=
  if argument < 0 then
    .error (.negativeArgument "!" argument)
  else if !Binary64.isInteger argument then
    .error (.fractionalArgument "!" argument)
  else if 2 ^ (64 : Nat) ≤ Binary64.wholePart argument then
    .error (.overflow "!" argument)
  else
    match descendingProduct (Binary64.wholePart argument) 1 with
    | some product => .ok product
    | none => .error (.overflow "!" argument)

/-- The first number to the power of the second. -/
def power (library : Elementary) (base exponent : Float) :
    Except CalculationError Float :=
  if exponent == 0 || base == 1 then
    .ok 1
  else if base < 0 && !Binary64.isInteger exponent then
    .error (.invalidPower base exponent)
  else
    .ok (library.pow base exponent)

/-- The logarithm of a value to a base. -/
def logarithm (library : Elementary) (base value : Float) :
    Except CalculationError Float :=
  if value ≤ 0 || base ≤ 0 || base == 1 then
    .error (.invalidLogarithm base value)
  else
    .ok (library.log2 value / library.log2 base)

namespace UnaryOperation

/-- Applies an operation to a number. -/
def apply (library : Elementary) (operation : UnaryOperation)
    (argument : Float) : Except CalculationError Float :=
  match operation with
  | negate => .ok (-argument)
  | factorial => Calculator.factorial argument
  | sin => .ok (library.sin argument)
  | cos => .ok (library.cos argument)
  | tan =>
      if library.cos argument == 0 then
        .error (.outsideDomain "tan" argument "cos(x) != 0")
      else
        .ok (library.tan argument)
  | sec =>
      if library.cos argument == 0 then
        .error (.outsideDomain "sec" argument "cos(x) != 0")
      else
        .ok (1 / library.cos argument)
  | csc | cosec =>
      if library.sin argument == 0 then
        .error (.outsideDomain "csc" argument "sin(x) != 0")
      else
        .ok (1 / library.sin argument)
  | cot =>
      if library.sin argument == 0 then
        .error (.outsideDomain "cot" argument "sin(x) != 0")
      else
        .ok (library.cos argument / library.sin argument)
  | asin =>
      if -1 ≤ argument && argument ≤ 1 then
        .ok (library.asin argument)
      else
        .error (.outsideDomain "asin" argument "-1 <= x <= 1")
  | acos =>
      if -1 ≤ argument && argument ≤ 1 then
        .ok (library.acos argument)
      else
        .error (.outsideDomain "acos" argument "-1 <= x <= 1")
  | atan => .ok (library.atan argument)
  | sinh => .ok (library.sinh argument)
  | cosh => .ok (library.cosh argument)
  | tanh => .ok (library.tanh argument)
  | asinh => .ok (library.asinh argument)
  | acosh =>
      if argument < 1 then
        .error (.outsideDomain "acosh" argument "x >= 1")
      else
        .ok (library.acosh argument)
  | atanh =>
      if argument ≤ -1 || 1 ≤ argument then
        .error (.outsideDomain "atanh" argument "-1 < x < 1")
      else
        .ok (library.atanh argument)
  | sqrt =>
      if argument ≤ 0 then
        .error (.outsideDomain "sqrt" argument "x > 0")
      else
        .ok argument.sqrt
  | cbrt => .ok (library.cbrt argument)
  | exp => .ok (library.exp argument)
  | ln =>
      if argument ≤ 0 then
        .error (.outsideDomain "ln" argument "x > 0")
      else
        .ok (library.log argument)
  | log2 =>
      if argument ≤ 0 then
        .error (.outsideDomain "log2" argument "x > 0")
      else
        .ok (library.log2 argument)
  | log =>
      if argument ≤ 0 then
        .error (.outsideDomain "log" argument "x > 0")
      else
        .ok (library.log10 argument)
  | abs => .ok argument.abs
  | ceil => .ok (Binary64.ceil argument)
  | floor => .ok (Binary64.floor argument)
  | round => .ok (Binary64.round argument)

end UnaryOperation

namespace BinaryOperation

/-- Applies an operation to two numbers. -/
def apply (library : Elementary) (operation : BinaryOperation)
    (first second : Float) : Except CalculationError Float :=
  match operation with
  | add => .ok (first + second)
  | subtract => .ok (first - second)
  | multiply => .ok (first * second)
  | divide =>
      if second == 0 then
        .error (.divisionByZero "/" first)
      else
        .ok (first / second)
  | remainder =>
      if second == 0 then
        .error (.divisionByZero "%" first)
      else
        .ok (Binary64.remainder first second)
  | power => Calculator.power library first second
  | logarithm => Calculator.logarithm library first second

end BinaryOperation

/-- Applies an operation to a row of numbers.  There is no result if these
are more or fewer than its operands. -/
def Operation.applyTo? (library : Elementary) :
    Operation → List Float → Option (Except CalculationError Float)
  | .constant named, [] => some (.ok named.value)
  | .unary operation, [argument] => some (operation.apply library argument)
  | .binary operation, [first, second] =>
      some (operation.apply library first second)
  | _, _ => none

/-- An operation has a result, or fails, exactly on as many numbers as it has
operands. -/
theorem Operation.isSome_applyTo? (library : Elementary)
    (operation : Operation) (operands : List Float) :
    (operation.applyTo? library operands).isSome = true ↔
      operands.length = operation.arity := by
  rcases operation with named | operation | operation <;>
    rcases operands with
      _ | ⟨first, _ | ⟨second, _ | ⟨third, rest⟩⟩⟩ <;>
    simp [applyTo?, arity]

end Calculator

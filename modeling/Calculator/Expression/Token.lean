import Calculator.Decimal.Closest
import Calculator.Operation.Basic

/-!
# Tokens

An expression is a row of tokens: numbers, operations and brackets.  A token
says in which role its operation is used, and the role alone decides how the
token is treated while tokens are reordered: a constant is an operand, an
operator or a function waits for operands.
-/

namespace Calculator

/-- How an operation is used in an expression. -/
inductive Role where
  | operator
  | function
  | constant
  deriving DecidableEq, Repr

/-- An operation in a role. -/
structure Symbol where
  role : Role
  operation : Operation
  deriving DecidableEq, Repr

/-- The priority of the operation. -/
def Symbol.priority (symbol : Symbol) : Nat := symbol.operation.priority

/-- A token of an expression. -/
inductive Token where
  | number (value : Float)
  | symbol (used : Symbol)
  | openBracket
  | closeBracket
  deriving DecidableEq

namespace Token

/-- An operation as an operator. -/
abbrev operator (operation : Operation) : Token :=
  .symbol ⟨.operator, operation⟩

/-- An operation as a function. -/
abbrev function (operation : Operation) : Token :=
  .symbol ⟨.function, operation⟩

/-- An operation as a constant. -/
abbrev constant (operation : Operation) : Token :=
  .symbol ⟨.constant, operation⟩

/-- The token in print. -/
def text : Token → String
  | .number value => Decimal.plain value
  | .symbol used => used.operation.name
  | .openBracket => "("
  | .closeBracket => ")"

/-- Tokens in print, with single spaces between them. -/
def textOf (tokens : List Token) : String :=
  " ".intercalate (tokens.map text)

end Token

end Calculator

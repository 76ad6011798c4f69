import Calculator.Expression.Lexeme
import Calculator.Expression.Token

/-!
# The tokens of an expression

Each lexeme becomes one token.  Only the minus sign needs its surroundings: it
is a subtraction after the end of an operand, that is after a numeral, a
constant or a closing bracket, and a negation everywhere else.  After a
factorial it is a negation too.

An expression has at least one token, and as many opening as closing
brackets; the order of the brackets is not looked at here.
-/

namespace Calculator

/-- The operation of a mark after the end of an operand, or elsewhere. -/
def Mark.operation (afterOperand : Bool) : Mark → Operation
  | .plus => .binary .add
  | .minus => if afterOperand then .binary .subtract else .unary .negate
  | .star => .binary .multiply
  | .slash => .binary .divide
  | .percent => .binary .remainder
  | .caret => .binary .power
  | .exclamation => .unary .factorial

namespace Lexeme

/-- Whether a minus sign after the lexeme is a subtraction. -/
def endsOperand : Lexeme → Bool
  | .numeral _ => true
  | .name (.constant _) => true
  | .closeBracket => true
  | _ => false

/-- The token of a lexeme after the end of an operand, or elsewhere. -/
def token (afterOperand : Bool) : Lexeme → Token
  | .numeral written => .number written.toFloat
  | .name (.constant value) => .constant (.constant value)
  | .name operation => .function operation
  | .mark sign => .operator (sign.operation afterOperand)
  | .openBracket => .openBracket
  | .closeBracket => .closeBracket

/-- The tokens of lexemes that stand after the end of an operand, or
elsewhere. -/
def tokens (afterOperand : Bool) : List Lexeme → List Token
  | [] => []
  | lexeme :: rest =>
      lexeme.token afterOperand :: tokens lexeme.endsOperand rest

@[simp]
theorem tokens_nil (afterOperand : Bool) : tokens afterOperand [] = [] :=
  rfl

@[simp]
theorem tokens_cons (afterOperand : Bool) (lexeme : Lexeme)
    (rest : List Lexeme) :
    tokens afterOperand (lexeme :: rest) =
      lexeme.token afterOperand :: tokens lexeme.endsOperand rest :=
  rfl

@[simp]
theorem length_tokens (afterOperand : Bool) (lexemes : List Lexeme) :
    (tokens afterOperand lexemes).length = lexemes.length := by
  induction lexemes generalizing afterOperand with
  | nil => rfl
  | cons lexeme rest ih => simp [ih]

end Lexeme

/-- Refuses a row of no tokens, and one whose opening and closing brackets
differ in number. -/
def checkBrackets (tokens : List Token) :
    Except CalculationError (List Token) :=
  let opening := tokens.count .openBracket
  let closing := tokens.count .closeBracket
  if tokens = [] then
    .error .emptyExpression
  else if closing < opening then
    .error (.excessOpeningBrackets (opening - closing))
  else if opening < closing then
    .error (.excessClosingBrackets (closing - opening))
  else
    .ok tokens

/-- The tokens of the text of an expression. -/
def tokenize (text : String) : Except CalculationError (List Token) := do
  let lexemes ← Lexeme.scan text.toList
  checkBrackets (Lexeme.tokens false lexemes)

end Calculator

import Calculator.Decimal.Closest

/-!
# What can go wrong in a calculation

An error is a cause: it names what was written, where it stands, and the
numbers that an operation was applied to.  Its kind says which stage of a
calculation refused, and its message puts the cause in words.
-/

namespace Calculator

/-- The stage of a calculation that refuses. -/
inductive ErrorKind where
  /-- The text is no row of lexemes with as many opening as closing
  brackets. -/
  | lexical
  /-- The tokens are no expression. -/
  | structural
  /-- An operation is not defined for its operands. -/
  | domain
  /-- A result is too large. -/
  | overflow
  /-- Operations and operands do not match. -/
  | evaluation
  /-- The result cannot be recorded. -/
  | recording
  deriving DecidableEq, Repr

/-- The name under which a kind of error is reported. -/
def ErrorKind.name : ErrorKind → String
  | .lexical => "LexError"
  | .structural => "ParseError"
  | .domain => "DomainError"
  | .overflow => "OverflowError"
  | .evaluation => "EvalError"
  | .recording => "AllocationError"

/-- The cause of a failed calculation.  Positions count the characters of
the expression from zero. -/
inductive CalculationError where
  /-- A character with which no lexeme starts. -/
  | unrecognizedCharacter (character : Char) (index : Nat)
  /-- A name that nothing has. -/
  | unrecognizedName (name : String) (index : Nat)
  /-- A function without an opening bracket; the position is where the
  bracket is missing. -/
  | missingBracket (function : String) (index : Nat)
  /-- A numeral that breaks off. -/
  | malformedNumeral (index : Nat) (reason : String)
  /-- A numeral whose number is too large. -/
  | numeralOutOfRange (numeral : String)
  /-- More opening than closing brackets, by the given number. -/
  | excessOpeningBrackets (count : Nat)
  /-- More closing than opening brackets, by the given number. -/
  | excessClosingBrackets (count : Nat)
  /-- No lexeme at all. -/
  | emptyExpression
  /-- A bracket that has no partner. -/
  | unmatchedBracket
  /-- A division or a remainder by zero. -/
  | divisionByZero (operator : String) (dividend : Float)
  /-- An argument for which a function is not defined. -/
  | outsideDomain (function : String) (argument : Float) (domain : String)
  /-- A negative base with an exponent that is no integer. -/
  | invalidPower (base exponent : Float)
  /-- A base or a value that no logarithm has. -/
  | invalidLogarithm (base value : Float)
  /-- A negative argument. -/
  | negativeArgument (function : String) (argument : Float)
  /-- An argument that is no integer. -/
  | fractionalArgument (function : String) (argument : Float)
  /-- An argument for which the result is too large. -/
  | overflow (function : String) (argument : Float)
  /-- An operation without any operand. -/
  | excessOperator (operator : String)
  /-- An operation with one operand instead of two. -/
  | missingSecondArgument (operator : String)
  /-- Nothing to calculate. -/
  | noValue
  /-- More than one value left. -/
  | tooManyValues (count : Nat)
  /-- A history that holds as many entries as it may. -/
  | historyFull (limit : Nat)
  /-- No memory for another entry. -/
  | outOfMemory
  deriving DecidableEq

namespace CalculationError

/-- The stage that refused. -/
def kind : CalculationError → ErrorKind
  | unrecognizedCharacter .. => .lexical
  | unrecognizedName .. => .lexical
  | missingBracket .. => .lexical
  | malformedNumeral .. => .lexical
  | numeralOutOfRange .. => .lexical
  | excessOpeningBrackets .. => .lexical
  | excessClosingBrackets .. => .lexical
  | emptyExpression => .structural
  | unmatchedBracket => .structural
  | divisionByZero .. => .domain
  | outsideDomain .. => .domain
  | invalidPower .. => .domain
  | invalidLogarithm .. => .domain
  | negativeArgument .. => .domain
  | fractionalArgument .. => .domain
  | overflow .. => .overflow
  | excessOperator .. => .evaluation
  | missingSecondArgument .. => .evaluation
  | noValue => .evaluation
  | tooManyValues .. => .evaluation
  | historyFull .. => .recording
  | outOfMemory => .recording

/-- The cause in words. -/
def message : CalculationError → String
  | unrecognizedCharacter character index =>
      s!"Unrecognized character '{character}' at index {index}"
  | unrecognizedName name index =>
      s!"Unrecognized token '{name}' at index {index}"
  | missingBracket function index =>
      s!"Missing parenthesis after '{function}' at index {index}"
  | malformedNumeral index reason =>
      s!"Failed to parse number at index {index} ({reason})"
  | numeralOutOfRange numeral => s!"Number '{numeral}' is out of range"
  | excessOpeningBrackets count =>
      s!"Found {count} unmatched left bracket(s)"
  | excessClosingBrackets count =>
      s!"Found {count} unmatched right bracket(s)"
  | emptyExpression => "Found 0 tokens to parse"
  | unmatchedBracket => "Failed to find parenthesis pair"
  | divisionByZero operator dividend =>
      s!"'{Decimal.plain dividend}' divided by zero (found '{operator}')"
  | outsideDomain function argument domain =>
      s!"Argument {Decimal.plain argument} of {function} out of range " ++
        s!"({domain})"
  | invalidPower base exponent =>
      s!"Negative base {Decimal.plain base} with non-integer exponent " ++
        Decimal.plain exponent
  | invalidLogarithm base value =>
      s!"log_{Decimal.plain base}({Decimal.plain value}) is not defined " ++
        "(base > 0, base != 1, value > 0)"
  | negativeArgument function argument =>
      s!"Function '{function}' is not defined for negative " ++
        Decimal.plain argument
  | fractionalArgument function argument =>
      s!"Function '{function}' supports only integers " ++
        s!"(found {Decimal.plain argument})"
  | overflow function argument =>
      s!"Result of '{function}' for {Decimal.plain argument} overflowed"
  | excessOperator operator => s!"Found excess operator '{operator}'"
  | missingSecondArgument operator =>
      s!"Failed to find second argument for '{operator}'"
  | noValue => "Nothing to calculate"
  | tooManyValues count =>
      s!"Too many numbers ({count} values left without operator)"
  | historyFull limit =>
      s!"Failed to record the result: history is full ({limit} entries)"
  | outOfMemory => "Failed to record the result: out of memory"

/-- The kind and the cause in words. -/
def report (failure : CalculationError) : String :=
  s!"{failure.kind.name}: {failure.message}"

end CalculationError

end Calculator

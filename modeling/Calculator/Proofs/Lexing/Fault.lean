import Calculator.Proofs.Lexing.Tokens

/-!
# How a text fails to be tokens

The lexemes of a text are found unless one of them has a fault; each fault
has an error of its own.  The lexemes that are found are refused only where
there are none, or where one kind of bracket outnumbers the other.
-/

namespace Calculator

/-- The errors that tell a fault of a lexeme. -/
inductive LexemeFault : CalculationError → Prop
  | character (character : Char) (index : Nat) :
      LexemeFault (.unrecognizedCharacter character index)
  | name (name : String) (index : Nat) :
      LexemeFault (.unrecognizedName name index)
  | bracket (function : String) (index : Nat) :
      LexemeFault (.missingBracket function index)
  | numeral (index : Nat) (fault : NumeralFault) :
      LexemeFault (.malformedNumeral index fault.reason)
  | range (numeral : String) : LexemeFault (.numeralOutOfRange numeral)

namespace Lexeme

variable {index : Nat} {first : Char} {text : List Char}
  {failure : CalculationError}

/-- What the scan has cut off as a numeral is always read as a number, so a
numeral fails by its own fault or by its size only. -/
theorem lexemeFault_of_readNumeral
    (starts : Numeral.startsWith first = true)
    (failed : readNumeral index (first :: text) = .error failure) :
    LexemeFault failure := by
  rw [readNumeral_eq index starts] at failed
  split at failed
  · cases failed
    exact .numeral index _
  · split at failed
    · cases failed
    · cases failed
      exact .range _

theorem lexemeFault_of_readName
    (failed : readName index text = .error failure) :
    LexemeFault failure := by
  unfold readName at failed
  dsimp only at failed
  split at failed
  · cases failed
    exact .name _ index
  · split at failed
    · cases failed
    · cases failed
      exact .bracket _ _
  · cases failed

theorem lexemeFault_of_read
    (failed : read index first text = .error failure) :
    LexemeFault failure := by
  unfold read at failed
  split at failed
  · next starts => exact lexemeFault_of_readNumeral starts failed
  · split at failed
    · exact lexemeFault_of_readName failed
    · split at failed
      · cases failed
      · split at failed
        · cases failed
        · split at failed
          · cases failed
          · cases failed
            exact .character first index

theorem lexemeFault_of_scanFrom
    (failed : scanFrom index text = .error failure) :
    LexemeFault failure := by
  induction index, text using scanFrom.induct with
  | case1 index =>
      rw [scanFrom] at failed
      cases failed
  | case2 index first rest blank ih =>
      rw [scanFrom, if_pos blank] at failed
      exact ih failed
  | case3 index first rest notBlank fault faulty =>
      rw [scanFrom, if_neg notBlank] at failed
      split at failed
      · next found =>
          cases failed
          exact lexemeFault_of_read found
      · next found =>
          rw [faulty] at found
          cases found
  | case4 index first rest notBlank lexeme remaining isRead ih =>
      rw [Cut.scanFrom_of_read (by simpa using notBlank) isRead,
        Outcome.map_eq_error_iff] at failed
      exact ih failed

theorem lexemeFault_of_scan (failed : scan text = .error failure) :
    LexemeFault failure :=
  lexemeFault_of_scanFrom failed

end Lexeme

/-! ## Lexemes that are refused -/

theorem checkBrackets_eq_error_iff {tokens : List Token}
    {failure : CalculationError} :
    checkBrackets tokens = .error failure ↔
      (tokens = [] ∧ failure = .emptyExpression) ∨
        (tokens.count .closeBracket < tokens.count .openBracket ∧
          failure = .excessOpeningBrackets
            (tokens.count .openBracket - tokens.count .closeBracket)) ∨
        (tokens.count .openBracket < tokens.count .closeBracket ∧
          failure = .excessClosingBrackets
            (tokens.count .closeBracket - tokens.count .openBracket)) := by
  rw [checkBrackets]
  split
  · next empty => simp [empty, eq_comm]
  · next nonempty =>
      split
      · next fewer =>
          have notMore : ¬ tokens.count .openBracket <
              tokens.count .closeBracket := by
            omega
          simp [nonempty, fewer, notMore, eq_comm]
      · next notFewer =>
          split
          · next more => simp [nonempty, notFewer, more, eq_comm]
          · next notMore => simp [nonempty, notFewer, notMore]

end Calculator

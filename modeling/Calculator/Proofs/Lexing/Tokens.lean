import Calculator.Expression.Tokens
import Calculator.Proofs.Lexing.Cut

/-!
# The lexical grammar of expressions

An expression is accepted as a row of tokens exactly when its text has a
lexical cut into at least one lexeme, with as many opening as closing
brackets.  Each lexeme denotes one token.  Only the meaning of a minus sign
depends on the lexeme before it: it is a negation where an operand is
expected, and a subtraction elsewhere.
-/

namespace Calculator

/-- An operand is expected at the beginning, and after a mark, an opening
bracket or the name of a function; so not after a numeral, a constant or a
closing bracket. -/
inductive ExpectsOperand : Option Lexeme → Prop
  | beginning : ExpectsOperand none
  | afterMark (sign : Mark) : ExpectsOperand (some (.mark sign))
  | afterOpenBracket : ExpectsOperand (some .openBracket)
  | afterFunction (operation : Operation)
      (function : operation.arity ≠ 0) :
      ExpectsOperand (some (.name operation))

/-- The token that a lexeme denotes after the given one. -/
inductive Denotes : Option Lexeme → Lexeme → Token → Prop
  | numeral (before : Option Lexeme) (written : Numeral) :
      Denotes before (.numeral written) (.number written.toFloat)
  | constant (before : Option Lexeme) (named : Constant) :
      Denotes before (.name (.constant named))
        (.constant (.constant named))
  | function (before : Option Lexeme) (operation : Operation)
      (function : operation.arity ≠ 0) :
      Denotes before (.name operation) (.function operation)
  | plus (before : Option Lexeme) :
      Denotes before (.mark .plus) (.operator (.binary .add))
  | negation (before : Option Lexeme) (expected : ExpectsOperand before) :
      Denotes before (.mark .minus) (.operator (.unary .negate))
  | subtraction (before : Option Lexeme)
      (unexpected : ¬ ExpectsOperand before) :
      Denotes before (.mark .minus) (.operator (.binary .subtract))
  | star (before : Option Lexeme) :
      Denotes before (.mark .star) (.operator (.binary .multiply))
  | slash (before : Option Lexeme) :
      Denotes before (.mark .slash) (.operator (.binary .divide))
  | percent (before : Option Lexeme) :
      Denotes before (.mark .percent) (.operator (.binary .remainder))
  | caret (before : Option Lexeme) :
      Denotes before (.mark .caret) (.operator (.binary .power))
  | exclamation (before : Option Lexeme) :
      Denotes before (.mark .exclamation) (.operator (.unary .factorial))
  | openBracket (before : Option Lexeme) :
      Denotes before .openBracket .openBracket
  | closeBracket (before : Option Lexeme) :
      Denotes before .closeBracket .closeBracket

/-- The tokens that lexemes denote, one by one, after the given lexeme. -/
inductive DenotesAll : Option Lexeme → List Lexeme → List Token → Prop
  | nil (before : Option Lexeme) : DenotesAll before [] []
  | cons {before : Option Lexeme} {lexeme : Lexeme} {token : Token}
      {lexemes : List Lexeme} {tokens : List Token}
      (first : Denotes before lexeme token)
      (others : DenotesAll (some lexeme) lexemes tokens) :
      DenotesAll before (lexeme :: lexemes) (token :: tokens)

/-- Whether an operand has just ended. -/
def endedOperand : Option Lexeme → Bool
  | none => false
  | some lexeme => lexeme.endsOperand

theorem expectsOperand_iff {before : Option Lexeme} :
    ExpectsOperand before ↔ endedOperand before = false := by
  constructor
  · intro expected
    cases expected with
    | beginning => rfl
    | afterMark sign => rfl
    | afterOpenBracket => rfl
    | afterFunction operation function =>
        rcases operation with named | operation | operation
        · exact absurd rfl function
        · rfl
        · rfl
  · intro notEnded
    rcases before with _ | written | operation | sign | _ | _
    · exact .beginning
    · cases notEnded
    · rcases operation with named | operation | operation
      · cases notEnded
      · exact .afterFunction _ (Nat.succ_ne_zero 0)
      · exact .afterFunction _ (Nat.succ_ne_zero 1)
    · exact .afterMark sign
    · exact .afterOpenBracket
    · cases notEnded

theorem denotes_iff {before : Option Lexeme} {lexeme : Lexeme}
    {token : Token} :
    Denotes before lexeme token ↔
      token = lexeme.token (endedOperand before) := by
  constructor
  · intro denotes
    cases denotes with
    | function operation function =>
        rcases operation with named | operation | operation
        · exact absurd rfl function
        · rfl
        · rfl
    | negation expected =>
        simp [Lexeme.token, Mark.operation,
          expectsOperand_iff.mp expected]
    | subtraction unexpected =>
        rw [expectsOperand_iff, Bool.not_eq_false] at unexpected
        simp [Lexeme.token, Mark.operation, unexpected]
    | _ => rfl
  · rintro rfl
    rcases lexeme with written | operation | sign | _ | _
    · exact .numeral before written
    · rcases operation with named | operation | operation
      · exact .constant before named
      · exact .function before _ (Nat.succ_ne_zero 0)
      · exact .function before _ (Nat.succ_ne_zero 1)
    · cases sign with
      | plus => exact .plus before
      | minus =>
          by_cases expected : ExpectsOperand before
          · have denotes := Denotes.negation before expected
            rw [expectsOperand_iff] at expected
            simpa [Lexeme.token, Mark.operation, expected] using denotes
          · have denotes := Denotes.subtraction before expected
            rw [expectsOperand_iff, Bool.not_eq_false] at expected
            simpa [Lexeme.token, Mark.operation, expected] using denotes
      | star => exact .star before
      | slash => exact .slash before
      | percent => exact .percent before
      | caret => exact .caret before
      | exclamation => exact .exclamation before
    · exact .openBracket before
    · exact .closeBracket before

theorem denotesAll_iff {before : Option Lexeme} {lexemes : List Lexeme}
    {tokens : List Token} :
    DenotesAll before lexemes tokens ↔
      tokens = Lexeme.tokens (endedOperand before) lexemes := by
  constructor
  · intro denotes
    induction denotes with
    | nil before => rfl
    | cons first others ih =>
        rw [Lexeme.tokens_cons, denotes_iff.mp first, ih]
        rfl
  · rintro rfl
    induction lexemes generalizing before with
    | nil => exact .nil before
    | cons lexeme lexemes ih =>
        exact .cons (denotes_iff.mpr rfl) ih

/-- Lexemes on both sides of one whose token does not depend on its
surroundings. -/
theorem Lexeme.tokens_append_cons (afterOperand : Bool)
    (before rest : List Lexeme) {lexeme : Lexeme} {token : Token}
    (same : ∀ afterOperand, lexeme.token afterOperand = token) :
    tokens afterOperand (before ++ lexeme :: rest) =
      tokens afterOperand before ++
        token :: tokens lexeme.endsOperand rest := by
  induction before generalizing afterOperand with
  | nil => simp [same]
  | cons first before ih => simp [ih]

/-! ## Brackets -/

theorem token_eq_openBracket_iff {lexeme : Lexeme} {afterOperand : Bool} :
    lexeme.token afterOperand = .openBracket ↔ lexeme = .openBracket := by
  rcases lexeme with written | (named | operation | operation) | sign |
    _ | _ <;>
    simp [Lexeme.token]

theorem token_eq_closeBracket_iff {lexeme : Lexeme}
    {afterOperand : Bool} :
    lexeme.token afterOperand = .closeBracket ↔
      lexeme = .closeBracket := by
  rcases lexeme with written | (named | operation | operation) | sign |
    _ | _ <;>
    simp [Lexeme.token]

/-- A token that only one lexeme denotes occurs as often as that lexeme. -/
theorem count_tokens {token : Token} {written : Lexeme}
    (denotes : ∀ (lexeme : Lexeme) (afterOperand : Bool),
      lexeme.token afterOperand = token ↔ lexeme = written)
    (afterOperand : Bool) (lexemes : List Lexeme) :
    (Lexeme.tokens afterOperand lexemes).count token =
      lexemes.count written := by
  induction lexemes generalizing afterOperand with
  | nil => rfl
  | cons lexeme lexemes ih =>
      rw [Lexeme.tokens_cons, List.count_cons, List.count_cons, ih]
      simp only [beq_iff_eq, denotes]

theorem count_openBracket_tokens (afterOperand : Bool)
    (lexemes : List Lexeme) :
    (Lexeme.tokens afterOperand lexemes).count .openBracket =
      lexemes.count .openBracket :=
  count_tokens (fun _ _ => token_eq_openBracket_iff) afterOperand lexemes

theorem count_closeBracket_tokens (afterOperand : Bool)
    (lexemes : List Lexeme) :
    (Lexeme.tokens afterOperand lexemes).count .closeBracket =
      lexemes.count .closeBracket :=
  count_tokens (fun _ _ => token_eq_closeBracket_iff) afterOperand lexemes

theorem checkBrackets_eq_ok_iff {tokens checked : List Token} :
    checkBrackets tokens = .ok checked ↔
      tokens ≠ [] ∧
        tokens.count .openBracket = tokens.count .closeBracket ∧
          checked = tokens := by
  rw [checkBrackets]
  split
  · next empty => simp [empty]
  · next nonempty =>
      split
      · next fewer =>
          simp only [reduceCtorEq, false_iff]
          rintro ⟨-, same, -⟩
          omega
      · split
        · next more =>
            simp only [reduceCtorEq, false_iff]
            rintro ⟨-, same, -⟩
            omega
        · simp only [Except.ok.injEq]
          constructor
          · rintro rfl
            exact ⟨nonempty, by omega, rfl⟩
          · rintro ⟨-, -, rfl⟩
            rfl

/-! ## The grammar -/

/-- A lexical cut of an expression: it has a lexeme, and as many opening as
closing brackets. -/
structure Cut.Accepted (cut : Cut) : Prop extends cut.Lexical where
  nonempty : cut.lexemes ≠ []
  brackets :
    cut.lexemes.count .openBracket = cut.lexemes.count .closeBracket

theorem tokenize_eq_ok_iff {text : String} {tokens : List Token} :
    tokenize text = .ok tokens ↔
      ∃ cut : Cut,
        cut.text = text.toList ∧ cut.Accepted ∧
          tokens = Lexeme.tokens false cut.lexemes := by
  rw [tokenize, Outcome.bind_eq_ok_iff]
  constructor
  · rintro ⟨lexemes, scanned, checked⟩
    obtain ⟨cut, lexical, same, rfl⟩ := Cut.scan_eq_ok_iff.mp scanned
    obtain ⟨nonempty, brackets, rfl⟩ := checkBrackets_eq_ok_iff.mp checked
    rw [count_openBracket_tokens, count_closeBracket_tokens] at brackets
    refine ⟨cut, same, ⟨lexical, ?_, brackets⟩, rfl⟩
    rintro empty
    rw [empty] at nonempty
    exact nonempty rfl
  · rintro ⟨cut, same, accepted, rfl⟩
    refine ⟨cut.lexemes, ?_, ?_⟩
    · exact Cut.scan_eq_ok_iff.mpr ⟨cut, accepted.toLexical, same, rfl⟩
    · rw [checkBrackets_eq_ok_iff, count_openBracket_tokens,
        count_closeBracket_tokens]
      refine ⟨?_, accepted.brackets, rfl⟩
      intro empty
      have length := congrArg List.length empty
      rw [Lexeme.length_tokens] at length
      exact accepted.nonempty (List.eq_nil_of_length_eq_zero length)

/--
A text is accepted exactly when it can be cut according to the lexical
grammar, and then its tokens are those that the lexemes of the cut denote.  No
other cut of the text is lexical.
-/
theorem tokenize_eq_ok_iff_exists_unique_cut (text : String)
    (tokens : List Token) :
    tokenize text = .ok tokens ↔
      ∃ cut : Cut,
        (cut.text = text.toList ∧ cut.Accepted) ∧
          DenotesAll none cut.lexemes tokens ∧
            ∀ other : Cut,
              other.text = text.toList → other.Lexical → other = cut := by
  rw [tokenize_eq_ok_iff]
  constructor
  · rintro ⟨cut, same, accepted, denoted⟩
    refine ⟨cut, ⟨same, accepted⟩, denotesAll_iff.mpr denoted, ?_⟩
    intro other otherSame otherLexical
    exact otherLexical.unique accepted.toLexical (otherSame.trans same.symm)
  · rintro ⟨cut, ⟨same, accepted⟩, denoted, -⟩
    exact ⟨cut, same, accepted, denotesAll_iff.mp denoted⟩

end Calculator

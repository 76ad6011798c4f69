import Calculator.Proofs.Conversion.Operand
import Calculator.Proofs.Conversion.Order
import Calculator.Proofs.Evaluation.Acceptance
import Calculator.Proofs.Lexing.Exchange
import Calculator.Proofs.Lexing.Tokens

/-!
# Bracketed expressions of equal value

A bracketed expression may be replaced by any other one of the same value.
The context, which need not be an expression itself, treats both alike at every
stage: it is cut into the same lexemes around the brackets, it lists the tokens
of either expression between the same tokens, and it continues with the same
value on the stack.

The value on the stack is the value of the expression unless noise is removed
from it at the very end.  This happens to a literal only, since operations
remove the noise from their results, and constants have none.
-/

namespace Calculator

/-! ## Scanning a bracketed expression -/

/-- A text in brackets, with what stands before and after them. -/
def bracketed (before inner after : String) : String :=
  before ++ "(" ++ inner ++ ")" ++ after

theorem toList_bracketed (before inner after : String) :
    (bracketed before inner after).toList =
      before.toList ++ '(' :: (inner.toList ++ ')' :: after.toList) := by
  simp [bracketed]

namespace Cut

/-- A cut in brackets, between two others. -/
def bracket (left inner right : Cut) : Cut :=
  left.join .openBracket (inner.join .closeBracket right)

variable {left inner other right : Cut}

theorem text_bracket :
    (left.bracket inner right).text =
      left.text ++ '(' :: (inner.text ++ ')' :: right.text) := by
  simp [bracket, Lexeme.spelling]

theorem tokens_lexemes_bracket :
    Lexeme.tokens false (left.bracket inner right).lexemes =
      Lexeme.tokens false left.lexemes ++
        .openBracket ::
          (Lexeme.tokens false inner.lexemes ++
            .closeBracket :: Lexeme.tokens true right.lexemes) := by
  rw [bracket, lexemes_join, lexemes_join,
    Lexeme.tokens_append_cons false _ _ fun _ => rfl,
    Lexeme.tokens_append_cons _ _ _ fun _ => rfl]
  rfl

/-- Any lexical cut may stand in the brackets. -/
theorem Lexical.exchange_bracket
    (lexical : (left.bracket inner right).Lexical)
    (otherLexical : other.Lexical) :
    (left.bracket other right).Lexical :=
  lexical.join_exchange .opening
    (otherLexical.join .closing lexical.of_join.of_join)

/-- So does any expression, as far as brackets are counted. -/
theorem Accepted.exchange_bracket
    (accepted : (left.bracket inner right).Accepted)
    (innerAccepted : inner.Accepted) (otherAccepted : other.Accepted) :
    (left.bracket other right).Accepted := by
  refine
    ⟨accepted.toLexical.exchange_bracket otherAccepted.toLexical, ?_, ?_⟩
  · simp [bracket]
  · have whole := accepted.brackets
    have removed := innerAccepted.brackets
    have inserted := otherAccepted.brackets
    simp only [bracket, lexemes_join, List.count_append, List.count_cons]
      at whole ⊢
    omega

end Cut

/-- In every context a bracketed expression is scanned alone: the context is
refused with every expression, or its tokens stand around those of the
expression. -/
theorem tokenize_bracketed (before after : String) :
    (∀ inner tokens, tokenize inner = .ok tokens →
      ∃ failure, tokenize (bracketed before inner after) =
        .error failure) ∨
      ∃ left right, ∀ inner tokens, tokenize inner = .ok tokens →
        tokenize (bracketed before inner after) =
          .ok (left ++ .openBracket :: (tokens ++ .closeBracket :: right)) := by
  by_cases accepts : ∃ inner tokens all, tokenize inner = .ok tokens ∧
      tokenize (bracketed before inner after) = .ok all
  · right
    obtain ⟨inner, tokens, all, innerTokens, allTokens⟩ := accepts
    obtain ⟨innerCut, innerText, innerAccepted, -⟩ :=
      tokenize_eq_ok_iff.mp innerTokens
    obtain ⟨cut, same, accepted, -⟩ := tokenize_eq_ok_iff.mp allTokens
    rw [toList_bracketed] at same
    obtain ⟨left, rest, rfl, leftText, restText⟩ :=
      accepted.toLexical.exists_join .opening same
    obtain ⟨between, right, rfl, betweenText, rightText⟩ :=
      accepted.toLexical.of_join.exists_join .closing restText
    -- The text in the brackets is cut as it is alone.
    have exchanged : (left.bracket innerCut right).Lexical :=
      accepted.toLexical.exchange_bracket innerAccepted.toLexical
    have unchanged := exchanged.unique accepted.toLexical
      (by rw [same, Cut.text_bracket, leftText, rightText, innerText])
    rw [← unchanged] at accepted
    refine ⟨Lexeme.tokens false left.lexemes,
      Lexeme.tokens true right.lexemes, ?_⟩
    intro other otherTokens scanned
    obtain ⟨otherCut, otherText, otherAccepted, rfl⟩ :=
      tokenize_eq_ok_iff.mp scanned
    refine tokenize_eq_ok_iff.mpr ⟨left.bracket otherCut right, ?_,
      accepted.exchange_bracket innerAccepted otherAccepted,
      Cut.tokens_lexemes_bracket.symm⟩
    rw [toList_bracketed, Cut.text_bracket, leftText, rightText, otherText]
  · left
    intro inner tokens scanned
    cases outcome : tokenize (bracketed before inner after) with
    | error failure => exact ⟨failure, rfl⟩
    | ok all => exact absurd ⟨inner, tokens, all, scanned, outcome⟩ accepts

/-! ## Values that have no noise -/

/-- A value of a text that no noise is removed from: the text contains an
operator or a function, or the value is not negligible. -/
def Settled (text : String) (value : Float) : Prop :=
  (∃ tokens used,
    tokenize text = .ok tokens ∧
      Token.symbol used ∈ tokens ∧ used.role ≠ .constant) ∨
    negligible ≤ value.abs ∨ value.isNaN = true

theorem withoutNoise_withoutNoise (number : Float) :
    withoutNoise (withoutNoise number) = withoutNoise number := by
  by_cases noise : number.abs < negligible
  · rw [withoutNoise.eq_def number, if_pos noise, withoutNoise, ite_self]
  · have kept : withoutNoise number = number := if_neg noise
    rw [kept, kept]

theorem withoutNoise_constant (named : Constant) :
    withoutNoise named.value = named.value := by
  cases named <;> decide

/-- Where the noise is removed, the result is negligible. -/
theorem withoutNoise_eq_self {number : Float}
    (settled : negligible ≤ (withoutNoise number).abs ∨
      (withoutNoise number).isNaN = true) :
    withoutNoise number = number := by
  by_cases noise : number.abs < negligible
  · rw [withoutNoise, if_pos noise] at settled
    exact absurd settled (by decide)
  · exact if_neg noise

/-- An operation leaves no noise. -/
theorem withoutNoise_of_map {outcome : Except CalculationError Float}
    {value : Float} (valued : outcome.map withoutNoise = .ok value) :
    withoutNoise value = value := by
  obtain ⟨source, -, rfl⟩ := Outcome.map_eq_ok_iff.mp valued
  exact withoutNoise_withoutNoise source

/-- Only a number alone has a value with noise. -/
theorem ExpressionTree.withoutNoise_value {library : Elementary}
    {tree : ExpressionTree} {value : Float}
    (valued : tree.value library = .ok value)
    (composed : ∀ literal, tree ≠ .number literal) :
    withoutNoise value = value := by
  cases tree with
  | number literal => exact absurd rfl (composed literal)
  | constant role named =>
      obtain rfl := Except.ok.inj valued
      exact withoutNoise_constant named
  | unary role operation operand =>
      obtain ⟨argument, -, valued⟩ := Outcome.bind_eq_ok_iff.mp valued
      exact withoutNoise_of_map valued
  | binary role operation first second =>
      obtain ⟨left, -, valued⟩ := Outcome.bind_eq_ok_iff.mp valued
      obtain ⟨right, -, valued⟩ := Outcome.bind_eq_ok_iff.mp valued
      exact withoutNoise_of_map valued

/-- The value of a text is the one of its tokens as they are ordered. -/
theorem calculate_eq_evaluate {library : Elementary} {text : String}
    {tokens output : List Token} (scanned : tokenize text = .ok tokens)
    (converted : toReversePolish tokens = .ok output) :
    calculate library text = evaluate library output := by
  rw [calculate, scanned]
  change (toReversePolish tokens >>= evaluate library) = _
  rw [converted]
  rfl

/-- A text with a value lists a tree, whose value is the one of the text up to
noise. -/
theorem exists_tree_of_calculate {library : Elementary} {text : String}
    {value : Float} (valued : calculate library text = .ok value) :
    ∃ tokens tree raw,
      tokenize text = .ok tokens ∧
        toReversePolish tokens = .ok (ExpressionTree.postorder tree) ∧
          tree.value library = .ok raw ∧ withoutNoise raw = value := by
  obtain ⟨tokens, scanned, ordered⟩ := Outcome.bind_eq_ok_iff.mp valued
  obtain ⟨output, converted, evaluated⟩ :=
    Outcome.bind_eq_ok_iff.mp ordered
  obtain ⟨tree, rfl, rounded⟩ := evaluate_eq_ok_iff.mp evaluated
  obtain ⟨raw, treeValue, noNoise⟩ := Outcome.map_eq_ok_iff.mp rounded
  exact ⟨tokens, tree, raw, scanned, converted, treeValue, noNoise⟩

/-- The tokens of a tree put its value on the stack. -/
theorem runValues_postorder_of_value {library : Elementary}
    {tree : ExpressionTree} {raw : Float}
    (treeValue : tree.value library = .ok raw) (stack : List Float) :
    runValues library stack tree.postorder = .ok (raw :: stack) := by
  rw [runValues_postorder, treeValue]
  rfl

/-- A settled value is what the tokens of the text put on the stack. -/
theorem exists_runValues_of_settled {library : Elementary} {text : String}
    {value : Float} (valued : calculate library text = .ok value)
    (settled : Settled text value) :
    ∃ tokens output,
      tokenize text = .ok tokens ∧
        toReversePolish tokens = .ok output ∧
          ∀ stack, runValues library stack output =
            .ok (value :: stack) := by
  obtain ⟨tokens, tree, raw, scanned, converted, treeValue, rfl⟩ :=
    exists_tree_of_calculate valued
  have noNoise : withoutNoise raw = raw := by
    rcases settled with ⟨others, used, otherScanned, member, waits⟩ | large
    · refine tree.withoutNoise_value treeValue ?_
      rintro literal rfl
      obtain rfl := Except.ok.inj (scanned.symm.trans otherScanned)
      have kept := (mem_iff_of_toReversePolish_eq_ok converted).mpr
        ⟨member, rfl⟩
      rw [ExpressionTree.postorder, List.mem_singleton] at kept
      cases kept
    · exact withoutNoise_eq_self large
  exact ⟨tokens, tree.postorder, scanned, converted,
    runValues_postorder_of_value (noNoise.symm ▸ treeValue)⟩

/-- Bracketed expressions of equal value are interchangeable in every
context. -/
theorem calculate_bracketed_eq_of_settled (library : Elementary)
    (before after first second : String) (value : Float)
    (firstValue : calculate library first = .ok value)
    (secondValue : calculate library second = .ok value)
    (firstSettled : Settled first value)
    (secondSettled : Settled second value) :
    ((∃ failure,
        tokenize (bracketed before first after) = .error failure) ∧
      ∃ failure,
        tokenize (bracketed before second after) = .error failure) ∨
      calculate library (bracketed before first after) =
        calculate library (bracketed before second after) := by
  obtain ⟨firstTokens, firstOutput, firstScanned, firstConverted, firstRun⟩ :=
    exists_runValues_of_settled firstValue firstSettled
  obtain ⟨secondTokens, secondOutput, secondScanned, secondConverted,
      secondRun⟩ :=
    exists_runValues_of_settled secondValue secondSettled
  rcases tokenize_bracketed before after with refused | ⟨left, right, tokens⟩
  · exact Or.inl
      ⟨refused first _ firstScanned, refused second _ secondScanned⟩
  right
  rw [calculate, calculate, tokens first _ firstScanned,
    tokens second _ secondScanned]
  change (toReversePolish _ >>= evaluate library) =
    (toReversePolish _ >>= evaluate library)
  rcases toReversePolish_bracketed left right with
    fails | ⟨earlier, later, ordered⟩
  · rw [fails _ _ firstConverted, fails _ _ secondConverted]
  · rw [ordered _ _ firstConverted, ordered _ _ secondConverted]
    change evaluate library _ = evaluate library _
    simp only [evaluate_eq_runValues, runValues_append, firstRun, secondRun]

/-- A sum takes the place of its value in a context that is no expression. -/
theorem calculate_bracketed_sum :
    calculate Elementary.system "2+3" = .ok 5 ∧
      calculate Elementary.system "5" = .ok 5 ∧
        calculate Elementary.system (bracketed "abs" "2+3" "!*") =
          calculate Elementary.system (bracketed "abs" "5" "!*") := by
  have sum : calculate Elementary.system "2+3" = .ok 5 := by
    decide +kernel
  have literal : calculate Elementary.system "5" = .ok 5 := by
    decide +kernel
  have large : negligible ≤ (5 : Float).abs := by decide
  have scanned : tokenize (bracketed "abs" "5" "!*") =
      .ok [.function (.unary .abs), .openBracket, .number 5, .closeBracket,
        .operator (.unary .factorial), .operator (.binary .multiply)] := by
    decide +kernel
  refine ⟨sum, literal, ?_⟩
  rcases calculate_bracketed_eq_of_settled Elementary.system "abs" "!*"
      "2+3" "5" 5 sum literal (Or.inr (Or.inl large))
      (Or.inr (Or.inl large)) with ⟨-, failure, refused⟩ | same
  · rw [scanned] at refused
    cases refused
  · exact same

end Calculator

import Calculator.Proofs.Evaluation.Blame
import Calculator.Proofs.Evaluation.Count
import Calculator.Proofs.Lexing.Brackets

/-!
# What structural errors say

An error that tells no operation is about the text as a whole, and says
exactly what is wrong with it: its brackets, or the number of its operands.
Each of these errors is followed through the three stages of a calculation.
Only one stage can cause it, and what it says there about tokens is said here
about the characters of the text.
-/

namespace Calculator

/-- Some prefix of the text holds more closing than opening brackets. -/
def ClosesEarly (text : List Char) : Prop :=
  ∃ count, (text.take count).count '(' < (text.take count).count ')'

/-- The characters of a text that are not blank. -/
def withoutBlanks (text : List Char) : List Char :=
  text.filter fun character => !Text.isBlank character

variable {library : Elementary} {text : String}

/-! ## The stage that fails -/

/-- An error that tells no operation comes from reading the text, from
brackets that close too early, or from a number of trees other than one. -/
theorem calculate_eq_error_iff {failure : CalculationError}
    (quiet : failure.tellsOperation = false) :
    calculate library text = .error failure ↔
      tokenize text = .error failure ∨
        ∃ tokens,
          tokenize text = .ok tokens ∧
            ((failure = .unmatchedBracket ∧ Unbalanced tokens) ∨
              ∃ forest found,
                toReversePolish tokens =
                    .ok (Forest.postorder forest) ∧
                  forest.values library = .ok found ∧
                    forest.length ≠ 1 ∧
                      failure = leftOver forest.length) := by
  rw [calculate, Outcome.bind_eq_error_iff]
  refine or_congr_right (exists_congr fun tokens => and_congr_right ?_)
  intro scanned
  rw [Outcome.bind_eq_error_iff, toReversePolish_eq_error_iff]
  refine or_congr_right ?_
  constructor
  · rintro ⟨ordered, converted, failed⟩
    rcases evaluate_eq_error_iff.mp failed with
      ⟨forest, token, after, rfl, values, -, refuses⟩ |
      ⟨forest, found, rfl, evaluated, notSingle, rfl⟩
    · obtain ⟨-, noBracket⟩ :=
        (mem_iff_of_toReversePolish_eq_ok converted).mp
          (List.mem_append_right _ List.mem_cons_self)
      obtain ⟨used, others, operands, rfl, rfl, fails⟩ :=
        refuses.exists_failsOn noBracket
      rw [fails.blames.tellsOperation] at quiet
      cases quiet
    · exact ⟨forest, found, converted, evaluated, notSingle, rfl⟩
  · rintro ⟨forest, found, converted, evaluated, notSingle, rfl⟩
    refine ⟨_, converted, evaluate_eq_error_iff.mpr (Or.inr ?_)⟩
    exact ⟨forest, found, rfl, evaluated, notSingle, rfl⟩

/-- An error that is neither about early brackets nor about the number of
trees comes from reading the text. -/
theorem calculate_eq_error_iff_tokenize {failure : CalculationError}
    (quiet : failure.tellsOperation = false)
    (notEarly : failure ≠ .unmatchedBracket)
    (notCount : ∀ count, failure ≠ leftOver count) :
    calculate library text = .error failure ↔
      tokenize text = .error failure := by
  rw [calculate_eq_error_iff quiet, or_iff_left_iff_imp]
  rintro ⟨tokens, -, ⟨early, -⟩ | ⟨forest, -, -, -, -, count⟩⟩
  · exact absurd early notEarly
  · exact absurd count (notCount _)

/-- An error that tells no fault of a lexeme is about the number of lexemes or
of brackets. -/
theorem tokenize_eq_error_iff_of_not_lexemeFault
    {failure : CalculationError} (noFault : ¬ LexemeFault failure) :
    tokenize text = .error failure ↔
      (∃ lexemes, Lexeme.scan text.toList = .ok lexemes) ∧
        ((Blank text.toList ∧ failure = .emptyExpression) ∨
          (text.toList.count ')' < text.toList.count '(' ∧
            failure = .excessOpeningBrackets
              (text.toList.count '(' - text.toList.count ')')) ∨
          (text.toList.count '(' < text.toList.count ')' ∧
            failure = .excessClosingBrackets
              (text.toList.count ')' - text.toList.count '('))) := by
  have noScan : ¬ Lexeme.scan text.toList = .error failure :=
    fun faulty => noFault (Lexeme.lexemeFault_of_scan faulty)
  rw [tokenize, Outcome.bind_eq_error_iff, or_iff_right noScan,
    ← exists_and_right]
  refine exists_congr fun lexemes => and_congr_right fun scanned => ?_
  obtain ⟨cut, lexical, same, rfl⟩ := Cut.scan_eq_ok_iff.mp scanned
  rw [checkBrackets_eq_error_iff, lexical.count_openBracket,
    lexical.count_closeBracket, Lexeme.tokens_eq_nil_iff,
    lexical.lexemes_eq_nil_iff, same]

/-- No other error comes from reading the text. -/
theorem tokenize_ne_error {failure : CalculationError}
    (noFault : ¬ LexemeFault failure)
    (notEmpty : failure ≠ .emptyExpression)
    (notOpening : ∀ count, failure ≠ .excessOpeningBrackets count)
    (notClosing : ∀ count, failure ≠ .excessClosingBrackets count) :
    tokenize text ≠ .error failure := by
  rw [ne_eq, tokenize_eq_error_iff_of_not_lexemeFault noFault]
  rintro ⟨-, ⟨-, same⟩ | ⟨-, same⟩ | ⟨-, same⟩⟩
  · exact notEmpty same
  · exact notOpening _ same
  · exact notClosing _ same

theorem leftOver_ne (count : Nat) {failure : CalculationError}
    (notNone : failure ≠ .noValue)
    (notMany : ∀ count, failure ≠ .tooManyValues count) :
    failure ≠ leftOver count := by
  unfold leftOver
  split
  · exact notNone
  · exact notMany count

/-! ## Each error -/

theorem calculate_eq_emptyExpression_iff :
    calculate library text = .error .emptyExpression ↔
      Blank text.toList := by
  rw [calculate_eq_error_iff_tokenize rfl (by simp)
      fun count => leftOver_ne count (by simp) (by simp),
    tokenize_eq_error_iff_of_not_lexemeFault (by rintro ⟨⟩)]
  simp only [reduceCtorEq, and_false, or_false, and_true,
    and_iff_right_iff_imp]
  intro blank
  have lexical : Cut.Lexical ⟨[], text.toList⟩ :=
    Cut.lexical_nil_iff.mpr blank
  exact ⟨_, Cut.scan_eq_ok_iff.mpr ⟨_, lexical, rfl, rfl⟩⟩

theorem calculate_eq_excessOpeningBrackets_iff (count : Nat) :
    calculate library text = .error (.excessOpeningBrackets count) ↔
      (∃ lexemes, Lexeme.scan text.toList = .ok lexemes) ∧ 0 < count ∧
        text.toList.count '(' = text.toList.count ')' + count := by
  rw [calculate_eq_error_iff_tokenize rfl (by simp)
      fun count => leftOver_ne count (by simp) (by simp),
    tokenize_eq_error_iff_of_not_lexemeFault (by rintro ⟨⟩)]
  refine and_congr_right fun _ => ?_
  simp only [reduceCtorEq, and_false, or_false, false_or,
    CalculationError.excessOpeningBrackets.injEq]
  omega

theorem calculate_eq_excessClosingBrackets_iff (count : Nat) :
    calculate library text = .error (.excessClosingBrackets count) ↔
      (∃ lexemes, Lexeme.scan text.toList = .ok lexemes) ∧ 0 < count ∧
        text.toList.count ')' = text.toList.count '(' + count := by
  rw [calculate_eq_error_iff_tokenize rfl (by simp)
      fun count => leftOver_ne count (by simp) (by simp),
    tokenize_eq_error_iff_of_not_lexemeFault (by rintro ⟨⟩)]
  refine and_congr_right fun _ => ?_
  simp only [reduceCtorEq, and_false, false_or,
    CalculationError.excessClosingBrackets.injEq]
  omega

theorem calculate_eq_unmatchedBracket_iff :
    calculate library text = .error .unmatchedBracket ↔
      (∃ tokens, tokenize text = .ok tokens) ∧
        ClosesEarly text.toList := by
  have notRead : tokenize text ≠ .error .unmatchedBracket :=
    tokenize_ne_error (by rintro ⟨⟩) (by simp) (by simp) (by simp)
  rw [calculate_eq_error_iff rfl, or_iff_right notRead]
  constructor
  · rintro ⟨tokens, scanned, ⟨-, unbalanced⟩ | ⟨forest, -, -, -, -, count⟩⟩
    · refine ⟨⟨tokens, scanned⟩, ?_⟩
      obtain ⟨cut, same, accepted, rfl⟩ := tokenize_eq_ok_iff.mp scanned
      rcases unbalanced with early | different
      · rw [ClosesEarly, ← same]
        exact accepted.exists_take_tokens_iff.mp early
      · rw [count_openBracket_tokens, count_closeBracket_tokens]
          at different
        exact absurd accepted.brackets different
    · exact absurd count (leftOver_ne _ (by simp) (by simp))
  · rintro ⟨⟨tokens, scanned⟩, early⟩
    refine ⟨tokens, scanned, Or.inl ⟨rfl, Or.inl ?_⟩⟩
    obtain ⟨cut, same, accepted, rfl⟩ := tokenize_eq_ok_iff.mp scanned
    rw [ClosesEarly, ← same] at early
    exact accepted.exists_take_tokens_iff.mpr early

theorem leftOver_eq_noValue_iff {count : Nat} :
    .noValue = leftOver count ↔ count = 0 := by
  unfold leftOver
  split <;> simp_all

/-- A conversion returns nothing exactly for nested brackets. -/
theorem toReversePolish_eq_nil_iff (tokens : List Token) :
    toReversePolish tokens = .ok [] ↔
      Nested tokens ∧ ∀ token ∈ tokens, token.isBracket = true := by
  rw [← exists_toReversePolish_eq_ok_iff]
  have allBrackets (output : List Token)
      (converted : toReversePolish tokens = .ok output) :
      output = [] ↔ ∀ token ∈ tokens, token.isBracket = true := by
    have same := perm_of_toReversePolish_eq_ok converted
    rw [← List.length_eq_zero_iff, same.length_eq,
      List.length_eq_zero_iff, List.filter_eq_nil_iff]
    simp
  constructor
  · intro converted
    exact ⟨⟨[], converted⟩, (allBrackets [] converted).mp rfl⟩
  · rintro ⟨⟨output, converted⟩, only⟩
    rw [converted, (allBrackets output converted).mpr only]

/-- There is no value exactly where only nested brackets are. -/
theorem calculate_eq_noValue_iff_tokens :
    calculate library text = .error .noValue ↔
      ∃ tokens,
        tokenize text = .ok tokens ∧ Nested tokens ∧
          ∀ token ∈ tokens, token.isBracket = true := by
  have notRead : tokenize text ≠ .error .noValue :=
    tokenize_ne_error (by rintro ⟨⟩) (by simp) (by simp) (by simp)
  rw [calculate_eq_error_iff rfl, or_iff_right notRead]
  simp only [← toReversePolish_eq_nil_iff, reduceCtorEq, false_and,
    false_or, leftOver_eq_noValue_iff]
  refine exists_congr fun tokens => and_congr_right fun _ => ?_
  constructor
  · rintro ⟨forest, found, converted, -, -, none⟩
    rw [converted, List.eq_nil_of_length_eq_zero none]
    rfl
  · intro converted
    exact ⟨[], [], converted, rfl, by simp, rfl⟩

theorem mem_withoutBlanks_iff {text : List Char} {character : Char} :
    character ∈ withoutBlanks text ↔
      character ∈ text ∧ Text.isBlank character = false := by
  simp [withoutBlanks]

theorem forall_blankOrBracket_iff (text : List Char) :
    (∀ character ∈ text, BlankOrBracket character) ↔
      ∀ character ∈ withoutBlanks text,
        character = '(' ∨ character = ')' := by
  simp only [mem_withoutBlanks_iff, BlankOrBracket]
  constructor
  · rintro only character ⟨member, notBlank⟩
    refine (only character member).resolve_left ?_
    rw [notBlank]
    exact Bool.false_ne_true
  · intro only character member
    by_cases blank : Text.isBlank character = true
    · exact Or.inl blank
    · exact Or.inr (only character ⟨member, Bool.not_eq_true _ ▸ blank⟩)

theorem withoutBlanks_eq_nil_iff (text : List Char) :
    withoutBlanks text = [] ↔ Blank text := by
  simp [withoutBlanks, List.filter_eq_nil_iff, Blank]

/-- If all tokens of a lexical cut are brackets, they are the brackets of
what is not blank in the text. -/
theorem Cut.Lexical.tokens_eq_bracketsOf {cut : Cut}
    (lexical : cut.Lexical)
    (only : ∀ token ∈ Lexeme.tokens false cut.lexemes,
      token.isBracket = true) :
    Lexeme.tokens false cut.lexemes =
      bracketsOf (withoutBlanks cut.text) := by
  rw [withoutBlanks, bracketsOf_filter_not_isBlank,
    lexical.bracketsOf_text false, List.filter_eq_self.mpr only]

theorem calculate_eq_noValue_iff :
    calculate library text = .error .noValue ↔
      withoutBlanks text.toList ≠ [] ∧
        (∀ character ∈ withoutBlanks text.toList,
          character = '(' ∨ character = ')') ∧
        NestedText (withoutBlanks text.toList) := by
  rw [calculate_eq_noValue_iff_tokens, ne_eq, withoutBlanks_eq_nil_iff,
    ← forall_blankOrBracket_iff]
  constructor
  · rintro ⟨tokens, scanned, nested, only⟩
    obtain ⟨cut, same, accepted, rfl⟩ := tokenize_eq_ok_iff.mp scanned
    have brackets := accepted.tokens_eq_bracketsOf only
    rw [brackets, nested_bracketsOf_iff] at nested
    rw [← same, ← accepted.lexemes_eq_nil_iff]
    exact ⟨accepted.nonempty,
      (accepted.forall_isBracket_iff false).mp only, nested⟩
  · rintro ⟨notBlank, only, nested⟩
    obtain ⟨lexemes, scanned⟩ := Lexeme.exists_scanFrom_eq_ok 0 only
    obtain ⟨cut, lexical, same, rfl⟩ := Cut.scan_eq_ok_iff.mp scanned
    rw [← same] at notBlank only nested
    have allBrackets := (lexical.forall_isBracket_iff false).mpr only
    rw [← nested_bracketsOf_iff,
      ← lexical.tokens_eq_bracketsOf allBrackets] at nested
    have total := nested.total
    rw [count_openBracket_tokens, count_closeBracket_tokens] at total
    have accepted : cut.Accepted :=
      ⟨lexical, mt lexical.lexemes_eq_nil_iff.mp notBlank, total⟩
    exact ⟨_, tokenize_eq_ok_iff.mpr ⟨cut, same, accepted, rfl⟩, nested,
      allBrackets⟩

/-! ## Counts -/

/-- The values that are too many are counted by the tokens. -/
theorem exists_countP_of_tooManyValues {count : Nat}
    (failed : calculate library text = .error (.tooManyValues count)) :
    2 ≤ count ∧
      ∃ tokens,
        tokenize text = .ok tokens ∧
          tokens.countP Token.isOperand =
            tokens.countP Token.takesTwo + count := by
  rcases (calculate_eq_error_iff rfl).mp failed with
    unread | ⟨tokens, scanned, ⟨early, -⟩ | many⟩
  · exact absurd unread
      (tokenize_ne_error (by rintro ⟨⟩) (by simp) (by simp) (by simp))
  · cases early
  · obtain ⟨forest, found, converted, -, notSingle, left⟩ := many
    unfold leftOver at left
    split at left
    · cases left
    · obtain rfl := CalculationError.tooManyValues.inj left
      exact ⟨by omega, tokens, scanned,
        countP_isOperand_of_toReversePolish_eq_ok converted⟩

/-- Where there is a value, one operand is more than the operations on two
numbers take. -/
theorem exists_countP_of_calculate_eq_ok {value : Float}
    (calculated : calculate library text = .ok value) :
    ∃ tokens,
      tokenize text = .ok tokens ∧
        tokens.countP Token.isOperand =
          tokens.countP Token.takesTwo + 1 := by
  rw [calculate, Outcome.bind_eq_ok_iff] at calculated
  obtain ⟨tokens, scanned, calculated⟩ := calculated
  obtain ⟨ordered, converted, evaluated⟩ :=
    Outcome.bind_eq_ok_iff.mp calculated
  obtain ⟨tree, listed, -⟩ := evaluate_eq_ok_iff.mp evaluated
  have single : Forest.postorder [tree] = ordered := by
    simpa [Forest.postorder] using listed
  rw [← single] at converted
  exact ⟨tokens, scanned,
    countP_isOperand_of_toReversePolish_eq_ok converted⟩

/-! ## What is never reported -/

/-- The errors that no calculation fails with. -/
inductive NeverReported : CalculationError → Prop
  | historyFull (limit : Nat) : NeverReported (.historyFull limit)
  | outOfMemory : NeverReported .outOfMemory
  | notANumber (index : Nat) :
      NeverReported (.malformedNumeral index "not a number")

theorem LexemeFault.not_neverReported {failure : CalculationError}
    (fault : LexemeFault failure) : ¬ NeverReported failure := by
  intro never
  cases never with
  | historyFull limit => cases fault
  | outOfMemory => cases fault
  | notANumber index =>
      generalize reasonEq : "not a number" = reason at fault
      cases fault with
      | numeral index numeralFault =>
          cases numeralFault <;> exact absurd reasonEq (by decide)

theorem calculate_ne_of_neverReported {failure : CalculationError}
    (never : NeverReported failure) :
    calculate library text ≠ .error failure := by
  have quiet : failure.tellsOperation = false := by cases never <;> rfl
  have notEarly : failure ≠ .unmatchedBracket := by cases never <;> simp
  have notCount (count : Nat) : failure ≠ leftOver count :=
    leftOver_ne count (by cases never <;> simp) (by cases never <;> simp)
  have notRead : tokenize text ≠ .error failure :=
    tokenize_ne_error (fun fault => fault.not_neverReported never)
      (by cases never <;> simp) (by cases never <;> simp)
      (by cases never <;> simp)
  rwa [ne_eq, calculate_eq_error_iff_tokenize quiet notEarly notCount]

/--
What the structural errors of a calculation say.

* A bracket is unmatched exactly where the text has tokens, and a bracket is
  closed before it is opened.
* There is no value exactly where the text, but for blanks, is a row of
  properly nested brackets, and there is nothing to calculate exactly where
  the text is blank.
* Opening or closing brackets are too many, by the given number, exactly where
  the text has lexemes and that many more brackets of the kind.
* Values are too many, by at least two, only where that is the number of
  operands less that of the operations on two numbers; the difference is one
  where there is a value.
* A full history, a lack of memory, and numerals that are no numbers are never
  reported.
-/
theorem calculate_structuralErrors (library : Elementary) (text : String) :
    (calculate library text = .error .unmatchedBracket ↔
      (∃ tokens, tokenize text = .ok tokens) ∧
        ClosesEarly text.toList) ∧
      (calculate library text = .error .noValue ↔
        withoutBlanks text.toList ≠ [] ∧
          (∀ character ∈ withoutBlanks text.toList,
            character = '(' ∨ character = ')') ∧
          NestedText (withoutBlanks text.toList)) ∧
      (calculate library text = .error .emptyExpression ↔
        Blank text.toList) ∧
      (∀ count,
        calculate library text = .error (.excessOpeningBrackets count) ↔
          (∃ lexemes, Lexeme.scan text.toList = .ok lexemes) ∧ 0 < count ∧
            text.toList.count '(' = text.toList.count ')' + count) ∧
      (∀ count,
        calculate library text = .error (.excessClosingBrackets count) ↔
          (∃ lexemes, Lexeme.scan text.toList = .ok lexemes) ∧ 0 < count ∧
            text.toList.count ')' = text.toList.count '(' + count) ∧
      (∀ count,
        calculate library text = .error (.tooManyValues count) →
          2 ≤ count ∧
            ∃ tokens,
              tokenize text = .ok tokens ∧
                tokens.countP Token.isOperand =
                  tokens.countP Token.takesTwo + count) ∧
      (∀ value,
        calculate library text = .ok value →
          ∃ tokens,
            tokenize text = .ok tokens ∧
              tokens.countP Token.isOperand =
                tokens.countP Token.takesTwo + 1) ∧
      ∀ failure, NeverReported failure →
        calculate library text ≠ .error failure :=
  ⟨calculate_eq_unmatchedBracket_iff, calculate_eq_noValue_iff,
    calculate_eq_emptyExpression_iff, calculate_eq_excessOpeningBrackets_iff,
    calculate_eq_excessClosingBrackets_iff,
    fun _ => exists_countP_of_tooManyValues,
    fun _ => exists_countP_of_calculate_eq_ok,
    fun _ => calculate_ne_of_neverReported⟩

end Calculator

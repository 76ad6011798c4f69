import Calculator.Proofs.Conversion.Substitution
import Calculator.Proofs.Evaluation.Bracketed
import Calculator.Proofs.Evaluation.Factorial
import Calculator.Proofs.Evaluation.Infinity
import Calculator.Proofs.Lexing.Assembly

/-!
# A minus before a factorial

A negation and a factorial bind equally tightly, and what waits is released at
its own priority.  So of the two the one that is written first is applied
first: the factorial of a negated operand is taken, and not the negation of a
factorial.  The result is the same with brackets around the minus and the
operand; with brackets around the operand and the factorial it is another one,
unless the operand has no number as its value.
-/

namespace Calculator

/-- The texts of a single operand: a literal, the name of a constant, or an
expression in brackets. -/
inductive OperandText : String → Prop
  | literal {written : Numeral} (shape : written.Literal)
      (finite : written.Finite) :
      OperandText (String.ofList written.spelling)
  | constant (named : Constant) : OperandText named.name
  | brackets {inner : String} {tokens : List Token}
      (scanned : tokenize inner = .ok tokens) (nested : Nested tokens) :
      OperandText ("(" ++ inner ++ ")")

/-- A single operand as it is scanned. -/
structure OperandLexemes (text : String) (lexemes : List Lexeme) : Prop where
  scanned : Lexeme.scan text.toList = .ok lexemes
  nonempty : lexemes ≠ []
  brackets : lexemes.count .openBracket = lexemes.count .closeBracket
  operand : SingleOperand (Lexeme.tokens false lexemes)

theorem OperandText.exists_lexemes {text : String}
    (operand : OperandText text) :
    ∃ lexemes, OperandLexemes text lexemes := by
  cases operand with
  | @literal written shape finite =>
      refine ⟨[.numeral written], ?_, by simp, rfl, .number _⟩
      have scanned := Lexeme.scan_numeral_append shape finite (stops_nil goesOn)
        Lexeme.scan_nil
      simpa using scanned
  | constant named =>
      refine ⟨[.name (.constant named)], ?_, by simp, rfl, .constant _⟩
      have stands : (Lexeme.name (.constant named)).StandsBefore [] :=
        ⟨nameBefore_constant named (stops_nil goesOn), nofun⟩
      have scanned := (Lexeme.scan_spelling_append_iff _ stands).mpr
        ⟨[], Lexeme.scan_nil, rfl⟩
      rw [List.append_nil] at scanned
      exact scanned
  | @brackets inner tokens scanned nested =>
      obtain ⟨inside, found, -, balanced, rfl⟩ :=
        tokenize_eq_ok_iff_scan.mp scanned
      refine ⟨.openBracket :: (inside ++ [.closeBracket]), ?_, by simp,
        by simp [balanced], ?_⟩
      · have closed := Lexeme.scan_sign_append .openBracket rfl
          (Lexeme.scan_append_sign found .closeBracket rfl
            Lexeme.scan_nil)
        simpa [Lexeme.spelling] using closed
      · rw [Lexeme.tokens_cons]
        simp only [Lexeme.endsOperand, Lexeme.tokens_append_closeBracket]
        exact .brackets nested

theorem OperandLexemes.tokenize_eq {text : String} {lexemes : List Lexeme}
    (operand : OperandLexemes text lexemes) :
    tokenize text = .ok (Lexeme.tokens false lexemes) :=
  tokenize_eq_ok_iff_scan.mpr
    ⟨lexemes, operand.scanned, operand.nonempty, operand.brackets, rfl⟩

/-! ## Scanning the two operators around an operand -/

section

variable {text : String} {lexemes : List Lexeme}
  (operand : OperandLexemes text lexemes)

include operand

theorem tokenize_minus_operand_exclamation :
    tokenize ("-" ++ text ++ "!") =
      .ok ([Token.operator (.unary .negate)] ++
        (Lexeme.tokens false lexemes ++
          [Token.operator (.unary .factorial)])) := by
  have scanned := Lexeme.scan_sign_append (.mark .minus) rfl
    (Lexeme.scan_append_sign operand.scanned (.mark .exclamation) rfl
      Lexeme.scan_nil)
  refine tokenize_eq_ok_iff_scan.mpr
    ⟨.mark .minus :: (lexemes ++ [.mark .exclamation]), ?_, by simp,
      by simpa using operand.brackets, ?_⟩
  · simpa [Lexeme.spelling, Mark.toChar] using scanned
  · simp only [Lexeme.tokens_cons, Lexeme.endsOperand,
      Lexeme.tokens_append_exclamation]
    rfl

theorem tokenize_bracketed_minus_exclamation :
    tokenize ("(-" ++ text ++ ")!") =
      .ok ([Token.openBracket, .operator (.unary .negate)] ++
        (Lexeme.tokens false lexemes ++
          [Token.closeBracket, .operator (.unary .factorial)])) := by
  have scanned := Lexeme.scan_sign_append .openBracket rfl
    (Lexeme.scan_sign_append (.mark .minus) rfl
      (Lexeme.scan_append_sign operand.scanned .closeBracket rfl
        (Lexeme.scan_sign_append (.mark .exclamation) rfl
          Lexeme.scan_nil)))
  refine tokenize_eq_ok_iff_scan.mpr
    ⟨.openBracket :: .mark .minus ::
      (lexemes ++ [.closeBracket, .mark .exclamation]), ?_, by simp,
      by simpa using operand.brackets, ?_⟩
  · simpa [Lexeme.spelling, Mark.toChar] using scanned
  · simp only [Lexeme.tokens_cons, Lexeme.endsOperand,
      Lexeme.tokens_append_closeBracket]
    rfl

theorem tokenize_minus_bracketed_exclamation :
    tokenize ("-(" ++ text ++ "!)") =
      .ok ([Token.operator (.unary .negate), .openBracket] ++
        (Lexeme.tokens false lexemes ++
          [Token.operator (.unary .factorial), .closeBracket])) := by
  have scanned := Lexeme.scan_sign_append (.mark .minus) rfl
    (Lexeme.scan_sign_append .openBracket rfl
      (Lexeme.scan_append_sign operand.scanned (.mark .exclamation) rfl
        (Lexeme.scan_sign_append .closeBracket rfl
          Lexeme.scan_nil)))
  refine tokenize_eq_ok_iff_scan.mpr
    ⟨.mark .minus :: .openBracket ::
      (lexemes ++ [.mark .exclamation, .closeBracket]), ?_, by simp,
      by simpa using operand.brackets, ?_⟩
  · simpa [Lexeme.spelling, Mark.toChar] using scanned
  · simp only [Lexeme.tokens_cons, Lexeme.endsOperand,
      Lexeme.tokens_append_exclamation]
    rfl

end

/-! ## Converting the two operators around an operand -/

/-- The negation passes before the factorial, with brackets around it and the
operand or without any.  With brackets around the operand and the factorial, the
factorial passes first. -/
theorem toReversePolish_minus_exclamation {operand output : List Token}
    (isOperand : SingleOperand operand)
    (converted : toReversePolish operand = .ok output) :
    toReversePolish
        ([Token.operator (.unary .negate)] ++
          (operand ++ [Token.operator (.unary .factorial)])) =
        .ok (output ++
          [Token.operator (.unary .negate), .operator (.unary .factorial)]) ∧
      toReversePolish
          ([Token.openBracket, .operator (.unary .negate)] ++
            (operand ++
              [Token.closeBracket, .operator (.unary .factorial)])) =
        .ok (output ++
          [Token.operator (.unary .negate), .operator (.unary .factorial)]) ∧
      toReversePolish
          ([Token.operator (.unary .negate), .openBracket] ++
            (operand ++
              [Token.operator (.unary .factorial), .closeBracket])) =
        .ok (output ++
          [Token.operator (.unary .factorial), .operator (.unary .negate)]) := by
  obtain ⟨passed, alone, inContext⟩ :=
    Conversion.toReversePolish_append_operand isOperand
  obtain rfl := Except.ok.inj (converted.symm.trans alone)
  have waits : [Token.operator (.unary .negate)].foldlM Conversion.push
      Conversion.start = pure ⟨#[], [⟨.operator, .unary .negate⟩], []⟩ := rfl
  have waitsInside :
      [.openBracket, Token.operator (.unary .negate)].foldlM Conversion.push
          Conversion.start =
        pure ⟨#[], [⟨.operator, .unary .negate⟩], [[]]⟩ := rfl
  have waitsOutside :
      [Token.operator (.unary .negate), .openBracket].foldlM Conversion.push
          Conversion.start =
        pure ⟨#[], [], [[⟨.operator, .unary .negate⟩]]⟩ := rfl
  refine ⟨?_, ?_, ?_⟩
  · rw [inContext, waits, pure_bind]
    refine Conversion.run_eq_ok_iff.mpr ⟨_, rfl, rfl, ?_⟩
    simp [Conversion.await, Conversion.release, Symbol.priority,
      Operation.priority]
  · rw [inContext, waitsInside, pure_bind]
    refine Conversion.run_eq_ok_iff.mpr ⟨_, rfl, rfl, ?_⟩
    simp [Conversion.await, Conversion.release, Symbol.priority,
      Operation.priority]
  · rw [inContext, waitsOutside, pure_bind]
    refine Conversion.run_eq_ok_iff.mpr ⟨_, rfl, rfl, ?_⟩
    simp [Conversion.await, Conversion.release, Symbol.priority,
      Operation.priority]

/-! ## Numbers without noise -/

section

open Binary64

/-- A number of at least one is no noise. -/
theorem withoutNoise_of_one_le {number : Float}
    (finite : number.isFinite = true) (least : 1 ≤ number) :
    withoutNoise number = number := by
  obtain ⟨negative, rank, found⟩ := isFinite_iff.mp finite
  rw [le_iff_toRat_le isFinite_one finite, toRat_one] at least
  have small : negligible.isFinite = true := by decide
  have below : negligible < 1 := by decide
  rw [lt_iff_toRat_lt small isFinite_one, toRat_one] at below
  refine if_neg ?_
  rw [lt_iff_toRat_lt (isFinite_abs finite) small, not_lt,
    toRat_of_ofFloat (ofFloat_abs found), if_neg Bool.false_ne_true,
    ← abs_toRat_of_ofFloat found]
  exact below.le.trans (least.trans (le_abs_self _))

theorem withoutNoise_of_isNaN {number : Float}
    (missing : number.isNaN = true) : withoutNoise number = number := by
  refine if_neg ?_
  rw [abs_of_isNaN missing]
  exact not_lt_of_isNaN missing

/-- Noise is neither what is no number, nor is it replaced by that. -/
theorem isNaN_withoutNoise_iff {number : Float} :
    (withoutNoise number).isNaN = true ↔ number.isNaN = true := by
  constructor
  · intro missing
    rwa [withoutNoise_eq_self (.inr missing)] at missing
  · intro missing
    rwa [withoutNoise_of_isNaN missing]

/-- Whether noise is removed before a negation or after it does not matter. -/
theorem withoutNoise_neg_withoutNoise (number : Float) :
    withoutNoise (-withoutNoise number) = withoutNoise (-number) := by
  by_cases noise : number.abs < negligible
  · have opposite : (-number).abs < negligible :=
      (abs_neg_eq_abs number).symm ▸ noise
    have zero : withoutNoise (-0) = 0 := by decide
    rw [withoutNoise.eq_def number, if_pos noise, zero,
      withoutNoise.eq_def (-number), if_pos opposite]
  · rw [withoutNoise.eq_def number, if_neg noise]

/-! ## The factorial of a negated number -/

/-- The opposite of a factorial is none. -/
theorem withoutNoise_neg_ne_one {result : Float}
    (finite : result.isFinite = true) (least : 1 ≤ result) :
    withoutNoise (-result) ≠ 1 := by
  obtain ⟨negative, rank, found⟩ := isFinite_iff.mp finite
  intro same
  rcases withoutNoise_eq_or (-result) with kept | noise
  · rw [kept] at same
    have opposite := toRat_neg found
    rw [same, toRat_one] at opposite
    rw [le_iff_toRat_le isFinite_one finite, toRat_one] at least
    linarith
  · rw [noise] at same
    revert same
    decide

/-- Without noise, the opposite of a number is zero or negative unless the
number is negative. -/
theorem withoutNoise_neg_lt_zero_or_eq_zero {number : Float}
    (isNumber : number.isNaN = false) (nonneg : ¬ number < 0) :
    withoutNoise (-number) < 0 ∨ withoutNoise (-number) = 0 := by
  rcases neg_lt_zero_or_abs_eq_zero isNumber nonneg with negative | zero
  · rcases withoutNoise_eq_or (-number) with kept | noise
    · exact .inl (kept.symm ▸ negative)
    · exact .inr noise
  · refine .inr (if_pos ?_)
    rw [abs_neg_eq_abs, zero]
    decide

theorem factorial_of_isNaN {number : Float} (missing : number.isNaN = true) :
    factorial number = .error (.fractionalArgument "!" number) := by
  rw [← fst_countedFactorial, countedFactorial_of_fractional (.inl missing)]

/-- The factorial of the opposite is the opposite of the factorial only of what
is no number. -/
theorem factorial_neg_eq_neg_factorial_iff (number : Float) :
    factorial (withoutNoise (-number)) =
        (factorial number).map (fun result => withoutNoise (-result)) ↔
      number.isNaN = true := by
  constructor
  · intro same
    rw [← Bool.not_eq_false]
    intro isNumber
    by_cases negative : number < 0
    · -- A negative number is refused, and its opposite is not negative.
      rw [factorial.eq_def number, if_pos negative] at same
      have refused := lt_zero_of_factorial same
      rcases withoutNoise_eq_or (-number) with kept | noise
      · rw [kept] at refused
        exact not_neg_lt_zero negative refused
      · rw [noise] at refused
        revert refused
        decide
    · rcases withoutNoise_neg_lt_zero_or_eq_zero isNumber negative
        with opposite | zero
      · -- The opposite is refused, and the number is not negative.
        rw [factorial.eq_def (withoutNoise _), if_pos opposite] at same
        have refused := Outcome.map_eq_error_iff.mp same.symm
        exact negative (lt_zero_of_factorial refused)
      · -- The factorial of zero is one, which is no opposite of a factorial.
        have ofZero : factorial 0 = .ok 1 := by decide +kernel
        rw [zero, ofZero] at same
        obtain ⟨result, applied, one⟩ := Outcome.map_eq_ok_iff.mp same.symm
        obtain ⟨finite, least⟩ := one_le_of_factorial applied
        exact withoutNoise_neg_ne_one finite least one
  · intro missing
    rw [neg_of_isNaN missing, withoutNoise_of_isNaN missing,
      factorial_of_isNaN missing]
    rfl

end

/-! ## Evaluating the two operators after an operand -/

section

variable {library : Elementary} {output : List Token}

section

variable {raw : Float} (ran : runValues library [] output = .ok [raw])

include ran

theorem evaluate_append_negate_factorial :
    evaluate library
        (output ++
          [Token.operator (.unary .negate), .operator (.unary .factorial)]) =
      factorial (withoutNoise (-raw)) := by
  have applied : runValues library [raw]
      [.operator (.unary .negate), .operator (.unary .factorial)] =
        (factorial (withoutNoise (-raw))).map ([withoutNoise ·]) >>= pure :=
    rfl
  rw [evaluate_eq_runValues, runValues_append, ran]
  change (runValues library [raw] _ >>= onlyValue) = _
  rw [applied]
  cases result : factorial (withoutNoise (-raw)) with
  | error failure => rfl
  | ok value =>
      obtain ⟨finite, least⟩ := one_le_of_factorial result
      have kept := withoutNoise_of_one_le finite least
      change Except.ok (withoutNoise (withoutNoise value)) = _
      rw [kept, kept]

theorem evaluate_append_factorial_negate :
    evaluate library
        (output ++
          [Token.operator (.unary .factorial), .operator (.unary .negate)]) =
      (factorial raw).map (fun result => withoutNoise (-result)) := by
  have applied : runValues library [raw]
      [.operator (.unary .factorial), .operator (.unary .negate)] =
        (factorial raw).map ([withoutNoise ·]) >>= fun values =>
          runValues library values [.operator (.unary .negate)] :=
    rfl
  rw [evaluate_eq_runValues, runValues_append, ran]
  change (runValues library [raw] _ >>= onlyValue) = _
  rw [applied]
  cases result : factorial raw with
  | error failure => rfl
  | ok value =>
      obtain ⟨finite, least⟩ := one_le_of_factorial result
      have kept := withoutNoise_of_one_le finite least
      change Except.ok (withoutNoise (withoutNoise (-withoutNoise value))) = _
      rw [kept, withoutNoise_withoutNoise]
      rfl

end

/-- Where the tokens of the operand fail, nothing after them is reached. -/
theorem evaluate_append_of_error {failure : CalculationError}
    (failed : runValues library [] output = .error failure)
    (rest : List Token) :
    evaluate library (output ++ rest) = .error failure := by
  rw [evaluate_eq_runValues, runValues_append, failed]
  rfl

/-- What is not about the number of values fails before the last token. -/
theorem runValues_eq_error_of_evaluate {failure : CalculationError}
    (failed : evaluate library output = .error failure)
    (notMissing : failure ≠ .noValue)
    (notLeft : ∀ count, failure ≠ .tooManyValues count) :
    runValues library [] output = .error failure := by
  rw [evaluate_eq_runValues, Outcome.bind_eq_error_iff] at failed
  rcases failed with stops | ⟨stack, -, only⟩
  · exact stops
  · rcases stack with _ | ⟨value, _ | ⟨next, others⟩⟩
    · exact absurd (Except.error.inj only).symm notMissing
    · cases only
    · exact absurd (Except.error.inj only).symm (notLeft _)

end

/-- A minus before an operand and a factorial negates the operand.  The result
is the same with brackets around the two, and another one with brackets around
the operand and the factorial, unless the operand has no number as its
value. -/
theorem calculate_negated_factorial (library : Elementary) {text : String}
    (operand : OperandText text) :
    calculate library ("-" ++ text ++ "!") =
        calculate library ("(-" ++ text ++ ")!") ∧
      (∀ value, calculate library text = .ok value →
        calculate library ("-" ++ text ++ "!") =
            factorial (withoutNoise (-value)) ∧
          (calculate library ("-" ++ text ++ "!") =
              calculate library ("-(" ++ text ++ "!)") ↔
            value.isNaN = true)) ∧
      ∀ failure, calculate library text = .error failure →
        failure ≠ .noValue → (∀ count, failure ≠ .tooManyValues count) →
          calculate library ("-" ++ text ++ "!") = .error failure ∧
            calculate library ("-(" ++ text ++ "!)") = .error failure := by
  obtain ⟨lexemes, scanned⟩ := operand.exists_lexemes
  obtain ⟨output, converted, -⟩ :=
    Conversion.toReversePolish_append_operand scanned.operand
  obtain ⟨outside, around, inside⟩ :=
    toReversePolish_minus_exclamation scanned.operand converted
  have alone : calculate library text = evaluate library output :=
    calculate_eq_evaluate scanned.tokenize_eq converted
  have minus : calculate library ("-" ++ text ++ "!") =
      evaluate library (output ++
        [Token.operator (.unary .negate), .operator (.unary .factorial)]) :=
    calculate_eq_evaluate (tokenize_minus_operand_exclamation scanned) outside
  have bracketedMinus : calculate library ("(-" ++ text ++ ")!") =
      evaluate library (output ++
        [Token.operator (.unary .negate), .operator (.unary .factorial)]) :=
    calculate_eq_evaluate (tokenize_bracketed_minus_exclamation scanned)
      around
  have bracketedFactorial : calculate library ("-(" ++ text ++ "!)") =
      evaluate library (output ++
        [Token.operator (.unary .factorial), .operator (.unary .negate)]) :=
    calculate_eq_evaluate (tokenize_minus_bracketed_exclamation scanned)
      inside
  refine ⟨minus.trans bracketedMinus.symm, ?_, ?_⟩
  · intro value valued
    obtain ⟨tree, rfl, rounded⟩ := evaluate_eq_ok_iff.mp (alone ▸ valued)
    obtain ⟨raw, treeValue, rfl⟩ := Outcome.map_eq_ok_iff.mp rounded
    have ran := runValues_postorder_of_value treeValue []
    rw [minus, bracketedFactorial, evaluate_append_negate_factorial ran,
      evaluate_append_factorial_negate ran, withoutNoise_neg_withoutNoise,
      isNaN_withoutNoise_iff]
    exact ⟨rfl, factorial_neg_eq_neg_factorial_iff raw⟩
  · intro failure failed notMissing notLeft
    have stops := runValues_eq_error_of_evaluate (alone ▸ failed) notMissing
      notLeft
    rw [minus, bracketedFactorial]
    exact ⟨evaluate_append_of_error stops _, evaluate_append_of_error stops _⟩

/-- A negative number has no factorial. -/
theorem calculate_negated_factorial_five :
    calculate Elementary.system "5" = .ok 5 ∧
      calculate Elementary.system "-5!" =
        .error (.negativeArgument "!" (-5)) ∧
      calculate Elementary.system "-5!" =
        calculate Elementary.system "(-5)!" := by
  have valued : calculate Elementary.system "5" = .ok 5 := by decide +kernel
  have literal : Numeral.Literal ⟨['5'], none, none⟩ :=
    ⟨by simp, by simp, by simp, by simp⟩
  have finite : Numeral.Finite ⟨['5'], none, none⟩ :=
    (Numeral.inRange_iff_finite _).mp (by decide +kernel)
  have text : String.ofList (Numeral.spelling ⟨['5'], none, none⟩) = "5" := by
    decide +kernel
  have operand : OperandText "5" := text ▸ .literal literal finite
  obtain ⟨same, values, -⟩ :=
    calculate_negated_factorial Elementary.system operand
  have negated := (values 5 valued).1
  exact ⟨valued, negated.trans (by decide +kernel), same⟩

/-- The factorial of a number is not negated by a minus in front of it. -/
theorem calculate_negated_factorial_ne :
    calculate Elementary.system ("-" ++ "5" ++ "!") ≠
        calculate Elementary.system ("-(" ++ "5" ++ "!)") ∧
      calculate Elementary.system ("-" ++ "0" ++ "!") = .ok 1 ∧
      calculate Elementary.system ("-(" ++ "0" ++ "!)") = .ok (-1) := by
  decide +kernel

end Calculator

import Calculator.Proofs.Binary64.Sign
import Calculator.Proofs.Decimal.Layout
import Calculator.Proofs.Decimal.Short
import Calculator.Proofs.Evaluation.Bracketed
import Calculator.Proofs.Lexing.Joining

/-!
# Printed results are read back

A result is printed as a literal, with a minus sign in front of it if it is
negative.  The printed text is cut into these one or two lexemes.  The literal
denotes the magnitude of the result, in whichever layout it is printed, and the
minus sign is a negation, since nothing stands before it.

So the value of the printed text is the result without noise, and no two
results are printed alike.
-/

namespace Calculator

/-- The tokens of a number: its magnitude, after a negation if the sign bit is
set. -/
def signedTokens (number : Float) : List Token :=
  if number.toBits.toNat < 2 ^ 63 then
    [.number number.abs]
  else
    [.operator (.unary .negate), .number number.abs]

section

variable {number : Float} {negative : Bool} {rank : Nat}

/-! ## Scanning a printed number -/

/-- What is printed after the sign is a literal of the magnitude. -/
theorem exists_numeral_display
    (found : Binary64.ofFloat number = .finite negative rank) :
    ∃ numeral : Numeral,
      (Decimal.display number).toList =
          Decimal.signText negative ++ numeral.spelling ∧
        numeral.Literal ∧ numeral.toFloat = number.abs := by
  have finite := Binary64.lt_of_ofFloat found
  have magnitude : number.abs = Binary64.signed false rank :=
    Binary64.eq_signed_of_ofFloat (Binary64.ofFloat_abs found)
  have printed : ∃ decimal : Decimal,
      Binary64.RoundsTo decimal.count rank ∧
        (Decimal.display number).toList =
          Decimal.signText negative ++ decimal.displayed := by
    simp only [Decimal.display, found, String.toList_ofList]
    split
    · next zero =>
        subst zero
        exact ⟨Decimal.closest 0, Decimal.roundsTo_closest 0, rfl⟩
    · next nonzero =>
        exact ⟨Decimal.short rank, Decimal.roundsTo_short
          (Nat.pos_of_ne_zero nonzero) finite, rfl⟩
  obtain ⟨decimal, rounds, printed⟩ := printed
  obtain ⟨numeral, spelled, literal, value⟩ :=
    decimal.spelledBy_displayed.exists_toFloat_eq rounds finite
  refine ⟨numeral, ?_, literal, value.trans magnitude.symm⟩
  rw [printed, spelled]

/-- Lexemes that can stand together are scanned without any blanks between
them. -/
theorem tokenize_of_joined {text : String} (lexemes : List Lexeme)
    (joined : Joined lexemes) (nonempty : lexemes ≠ [])
    (brackets : lexemes.count .openBracket = lexemes.count .closeBracket)
    (written : text.toList = lexemes.flatMap Lexeme.spelling) :
    tokenize text = .ok (Lexeme.tokens false lexemes) := by
  let cut : Cut := ⟨lexemes.map (Piece.mk []), []⟩
  have same : cut.lexemes = lexemes := by
    simp [cut, Cut.lexemes, Function.comp_def]
  have spaced : cut.Spaced := ⟨by simp [cut, Blank], by simp [cut, Blank]⟩
  refine tokenize_eq_ok_iff.mpr ⟨cut, ?_, ⟨?_, ?_, ?_⟩, by rw [same]⟩
  · simp [written, cut, Cut.text, List.flatMap_map]
  · exact Joined.lexical (same.symm ▸ joined) spaced
  · exact same.symm ▸ nonempty
  · exact same.symm ▸ brackets

theorem signedTokens_eq
    (found : Binary64.ofFloat number = .finite negative rank) :
    signedTokens number =
      if negative then [.operator (.unary .negate), .number number.abs]
      else [.number number.abs] := by
  obtain ⟨finite, bits⟩ := Binary64.ofFloat_eq_finite_iff.mp found
  simp only [Binary64.infinityRank] at finite
  cases negative with
  | false =>
      have clear : number.toBits.toNat < 2 ^ 63 := by
        simp only [Bool.false_eq_true, if_false] at bits
        omega
      exact if_pos clear
  | true =>
      have set : ¬ number.toBits.toNat < 2 ^ 63 := by
        simp only [if_true] at bits
        omega
      exact if_neg set

/-- A printed number is scanned as its magnitude, after a negation if the sign
bit is set. -/
theorem tokenize_display
    (found : Binary64.ofFloat number = .finite negative rank) :
    tokenize (Decimal.display number) = .ok (signedTokens number) := by
  obtain ⟨numeral, printed, literal, value⟩ := exists_numeral_display found
  have finite : numeral.Finite :=
    ⟨rank, by rw [value, Binary64.ofFloat_abs found]⟩
  have joins : (Lexeme.numeral numeral).Joins none :=
    ⟨literal, finite, by simp⟩
  rw [signedTokens_eq found, ← value]
  cases negative with
  | false =>
      have written : (Decimal.display number).toList =
          [Lexeme.numeral numeral].flatMap Lexeme.spelling := by
        simpa [Decimal.signText, Lexeme.spelling] using printed
      exact tokenize_of_joined [.numeral numeral] ⟨joins, trivial⟩
        (by simp) rfl written
  | true =>
      have written : (Decimal.display number).toList =
          [.mark .minus, Lexeme.numeral numeral].flatMap
            Lexeme.spelling := by
        simpa [Decimal.signText, Lexeme.spelling, Mark.toChar] using printed
      exact tokenize_of_joined [.mark .minus, .numeral numeral]
        ⟨trivial, joins, trivial⟩ (by simp) rfl written

/-! ## The value of a printed number -/

/-- The tokens of a number have the number as their value. -/
theorem evaluate_signedTokens (library : Elementary)
    (found : Binary64.ofFloat number = .finite negative rank) :
    (toReversePolish (signedTokens number) >>= evaluate library) =
      .ok (withoutNoise number) := by
  rw [signedTokens_eq found]
  cases negative with
  | false =>
      rw [Binary64.abs_of_ofFloat found]
      rfl
  | true =>
      have applied : (toReversePolish
            [.operator (.unary .negate), .number number.abs] >>=
          evaluate library) =
            .ok (withoutNoise (withoutNoise (-number.abs))) :=
        rfl
      rw [if_pos rfl, applied, withoutNoise_withoutNoise,
        Binary64.neg_abs_of_ofFloat found]

/-- Different numbers have different tokens. -/
theorem eq_of_signedTokens_eq {other : Float} {otherNegative : Bool}
    {otherRank : Nat}
    (found : Binary64.ofFloat number = .finite negative rank)
    (otherFound :
      Binary64.ofFloat other = .finite otherNegative otherRank)
    (same : signedTokens number = signedTokens other) :
    number = other := by
  rw [signedTokens_eq found, signedTokens_eq otherFound] at same
  cases negative with
  | false =>
      cases otherNegative with
      | false =>
          rw [Binary64.abs_of_ofFloat found,
            Binary64.abs_of_ofFloat otherFound] at same
          simpa using same
      | true => simp at same
  | true =>
      cases otherNegative with
      | false => simp at same
      | true =>
          have magnitude : number.abs = other.abs := by simpa using same
          rw [← Binary64.neg_abs_of_ofFloat found, magnitude,
            Binary64.neg_abs_of_ofFloat otherFound]

theorem display_of_infinite
    (found : Binary64.ofFloat number = .infinite negative) :
    Decimal.display number = if negative then "-inf" else "inf" := by
  rw [Decimal.display, found]
  cases negative <;> rfl

/-- An infinity is printed as no expression. -/
theorem tokenize_display_ne_ok
    (found : Binary64.ofFloat number = .infinite negative)
    (tokens : List Token) :
    tokenize (Decimal.display number) ≠ .ok tokens := by
  have positive : tokenize "inf" =
      .error (.unrecognizedName "inf" 0) := by
    decide +kernel
  have opposite : tokenize "-inf" =
      .error (.unrecognizedName "inf" 1) := by
    decide +kernel
  rw [display_of_infinite found]
  cases negative with
  | false => simp [positive]
  | true => simp [opposite]

end

/-- No two numbers are printed alike. -/
theorem eq_of_display_eq {first second : Float}
    (firstNumber : first.isNaN = false) (secondNumber : second.isNaN = false)
    (same : Decimal.display first = Decimal.display second) :
    first = second := by
  have isNumber : ∀ {number : Float}, number.isNaN = false →
      Binary64.ofFloat number ≠ .notANumber := by
    intro number isNumber missing
    rw [Binary64.isNaN_iff.mpr missing] at isNumber
    cases isNumber
  cases firstFound : Binary64.ofFloat first with
  | notANumber => exact absurd firstFound (isNumber firstNumber)
  | infinite negative =>
      cases secondFound : Binary64.ofFloat second with
      | notANumber => exact absurd secondFound (isNumber secondNumber)
      | infinite otherNegative =>
          rw [display_of_infinite firstFound,
            display_of_infinite secondFound] at same
          have signs : negative = otherNegative := by
            revert same
            cases negative <;> cases otherNegative <;> decide
          refine Binary64.eq_of_ofFloat_eq ?_ (isNumber firstNumber)
          rw [firstFound, secondFound, signs]
      | finite otherNegative rank =>
          exact absurd (same ▸ tokenize_display secondFound)
            (tokenize_display_ne_ok firstFound _)
  | finite negative rank =>
      have scanned := tokenize_display firstFound
      cases secondFound : Binary64.ofFloat second with
      | notANumber => exact absurd secondFound (isNumber secondNumber)
      | infinite otherNegative =>
          rw [same] at scanned
          exact absurd scanned (tokenize_display_ne_ok secondFound _)
      | finite otherNegative otherRank =>
          rw [same, tokenize_display secondFound] at scanned
          exact eq_of_signedTokens_eq firstFound secondFound
            (Except.ok.inj scanned).symm

/-- A printed result can be typed in again: the text of a finite number is
scanned as its magnitude, after a negation if its sign bit is set, its value is
the number without noise, and no other number is printed alike. -/
theorem display_reads_back :
    (∀ number : Float, number.isFinite = true →
      tokenize (Decimal.display number) = .ok (signedTokens number) ∧
        ∀ library : Elementary,
          calculate library (Decimal.display number) =
            .ok (withoutNoise number)) ∧
      ∀ first second : Float,
        first.isNaN = false → second.isNaN = false →
          Decimal.display first = Decimal.display second →
            first = second := by
  refine ⟨?_, fun first second => eq_of_display_eq⟩
  intro number finite
  obtain ⟨negative, rank, found⟩ := Binary64.isFinite_iff.mp finite
  have scanned := tokenize_display found
  refine ⟨scanned, fun library => ?_⟩
  rw [calculate, scanned]
  exact evaluate_signedTokens library found

/-- The smallest negative number is read back, and the two zeros are printed
differently. -/
theorem display_reads_back_subnormal :
    tokenize (Decimal.display (-5e-324)) =
        .ok [.operator (.unary .negate), .number 5e-324] ∧
      calculate Elementary.system (Decimal.display (-5e-324)) = .ok 0 ∧
        Decimal.display 0 ≠ Decimal.display (-0) := by
  obtain ⟨scanned, valued⟩ :=
    display_reads_back.1 (-5e-324) (by decide +kernel)
  refine ⟨?_, ?_, ?_⟩
  · rw [scanned]
    decide +kernel
  · rw [valued]
    decide +kernel
  · intro same
    exact absurd
      (display_reads_back.2 0 (-0) (by decide +kernel) (by decide +kernel)
        same)
      (by decide +kernel)

end Calculator

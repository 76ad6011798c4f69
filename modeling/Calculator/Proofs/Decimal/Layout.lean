import Calculator.Decimal.Display
import Calculator.Proofs.Decimal.Rounding
import Calculator.Proofs.Lexing.Literal

/-!
# Printed numbers are literals

A decimal number is printed in positional notation, with or without a zero
after the point, or with a power of ten.  Each layout is a number literal, and
the literal spells the number that is printed.  The literal need not have the
coefficient of the number: zeros are appended to a whole number, and a point
moves digits into the fraction.
-/

namespace Calculator

namespace Decimal

/-- The text is a literal that spells the number. -/
def SpelledBy (number : Decimal) (text : List Char) : Prop :=
  ∃ numeral : Numeral,
    numeral.spelling = text ∧ numeral.Literal ∧
      numeral.value.toRat = number.toRat

section

variable {number : Decimal}

/-! ## Digits -/

theorem digitsOf_ne_nil (value : Nat) : digitsOf value ≠ [] :=
  Nat.toDigits_ne_nil

/-- Zeros after the digits multiply by a power of ten. -/
theorem ofDigits_append_zeros (value places : Nat) :
    ofDigits (digitsOf value ++ List.replicate places '0') =
      value * 10 ^ places := by
  rw [ofDigits, Nat.ofDigitChars_append,
    Nat.ofDigitChars_replicate_zero, Nat.mul_comm]
  exact congrArg (· * 10 ^ places) (ofDigits_digitsOf value)

/-- Zeros before the digits do not matter. -/
theorem ofDigits_zeros_append (places : Nat) (digits : List Char) :
    ofDigits (List.replicate places '0' ++ digits) = ofDigits digits := by
  rw [ofDigits, Nat.ofDigitChars_append,
    Nat.ofDigitChars_replicate_zero, Nat.mul_zero]
  rfl

theorem isDigit_of_mem_zeros {places : Nat} {character : Char}
    (member : character ∈ List.replicate places '0') :
    character.isDigit = true := by
  rw [List.eq_of_mem_replicate member]
  rfl

/-! ## Positional notation -/

/-- Digits without a point. -/
theorem spelledBy_digits {digits : List Char}
    (inside : ∀ c ∈ digits, c.isDigit = true) (written : digits ≠ [])
    (value : (ofDigits digits : ℚ) = number.toRat) :
    number.SpelledBy digits := by
  refine ⟨⟨digits, none, none⟩, ?_, ?_, ?_⟩
  · simp [Numeral.spelling, Numeral.fractionSpelling]
  · exact ⟨inside, by simp, by simp, Or.inl written⟩
  · simpa [Numeral.value, toRat] using value

/-- Digits with a point among them. -/
theorem spelledBy_point (whole fraction : List Char)
    (wholeInside : ∀ c ∈ whole, c.isDigit = true)
    (fractionInside : ∀ c ∈ fraction, c.isDigit = true)
    (written : fraction ≠ [])
    (value : (ofDigits (whole ++ fraction) : ℚ) *
      10 ^ (-fraction.length : Int) = number.toRat) :
    number.SpelledBy (whole ++ '.' :: fraction) := by
  refine ⟨⟨whole, some fraction, none⟩, ?_, ?_, ?_⟩
  · simp [Numeral.spelling, Numeral.fractionSpelling]
  · refine ⟨wholeInside, ?_, by simp, Or.inr (by simp)⟩
    rintro digits ⟨⟩
    exact ⟨written, fractionInside⟩
  · simpa [Numeral.value, toRat] using value

/-- The digits of a whole number. -/
theorem isDigit_of_mem_whole {character : Char}
    (member : character ∈ digitsOf number.coefficient ++
      List.replicate number.exponent.toNat '0') :
    character.isDigit = true := by
  rcases List.mem_append.mp member with isDigit | isZero
  · exact isDigit_of_mem_digitsOf isDigit
  · exact isDigit_of_mem_zeros isZero

theorem toRat_of_nonneg (whole : 0 ≤ number.exponent) :
    number.toRat = number.coefficient * 10 ^ number.exponent.toNat := by
  rw [toRat, ← zpow_natCast, Int.toNat_of_nonneg whole]

/-- Positional notation is a literal of the number. -/
theorem spelledBy_positional (number : Decimal) :
    number.SpelledBy number.positional := by
  rw [positional]
  split
  · next whole =>
      refine spelledBy_digits (fun _ => isDigit_of_mem_whole)
        (by simp [digitsOf_ne_nil]) ?_
      rw [ofDigits_append_zeros, toRat_of_nonneg whole]
      push_cast
      rfl
  · next fractional =>
      have places : number.exponent = -((-number.exponent).toNat : Int) := by
        omega
      split
      · next inside =>
          refine spelledBy_point _ _ ?_ ?_ ?_ ?_
          · intro character member
            exact isDigit_of_mem_digitsOf (List.mem_of_mem_take member)
          · intro character member
            exact isDigit_of_mem_digitsOf (List.mem_of_mem_drop member)
          · rw [ne_eq, List.drop_eq_nil_iff]
            omega
          · rw [List.take_append_drop, ofDigits_digitsOf, toRat,
              List.length_drop]
            congr 2
            omega
      · next outside =>
          have front : (['0'] : List Char) = List.replicate 1 '0' := rfl
          refine spelledBy_point ['0'] _ ?_ ?_ ?_ ?_
          · simp
          · intro character member
            rcases List.mem_append.mp member with isZero | isDigit
            · exact isDigit_of_mem_zeros isZero
            · exact isDigit_of_mem_digitsOf isDigit
          · simp [digitsOf_ne_nil]
          · rw [front, ofDigits_zeros_append, ofDigits_zeros_append,
              ofDigits_digitsOf, toRat, List.length_append,
              List.length_replicate]
            congr 2
            omega

/-- So it is with a zero after the point of a whole number. -/
theorem spelledBy_positional_zero (whole : 0 ≤ number.exponent) :
    number.SpelledBy (number.positional ++ ['.', '0']) := by
  rw [positional, if_pos whole]
  refine spelledBy_point _ _ (fun _ => isDigit_of_mem_whole)
    (by simp) (by simp) ?_
  have ten : ofDigits (digitsOf number.coefficient ++
      List.replicate number.exponent.toNat '0' ++ ['0']) =
        number.coefficient * 10 ^ number.exponent.toNat * 10 := by
    have zero : (['0'] : List Char) = List.replicate 1 '0' := rfl
    rw [zero, List.append_assoc, List.replicate_append_replicate,
      ofDigits_append_zeros, Nat.pow_succ, Nat.mul_assoc]
  rw [ten, toRat_of_nonneg whole]
  push_cast
  rw [List.length_singleton, Nat.cast_one, zpow_neg, zpow_one,
    mul_inv_cancel_right₀ (by norm_num)]

/-! ## Powers of ten -/

/-- A power of ten as it is written. -/
def writtenPower (power : Int) : NumeralExponent where
  sign := if power < 0 then some .minus else none
  digits := digitsOf power.natAbs

theorem spelling_writtenPower (power : Int) :
    (writtenPower power).spelling =
      'e' :: (signText (power < 0) ++ digitsOf power.natAbs) := by
  rw [NumeralExponent.spelling, writtenPower]
  by_cases negative : power < 0
  · simp [negative, signText, ExponentSign.toChar]
  · simp [negative, signText]

theorem value_writtenPower (power : Int) :
    (writtenPower power).value = power := by
  rw [NumeralExponent.value, writtenPower]
  by_cases negative : power < 0
  · simp only [negative, if_true, ofDigits_digitsOf]
    omega
  · simp only [negative, if_false, ofDigits_digitsOf]
    omega

/-- Digits with a power of ten. -/
theorem spelledBy_power (number : Decimal) (whole : List Char)
    (fraction : Option (List Char)) (power : Int)
    (wholeInside : ∀ c ∈ whole, c.isDigit = true)
    (fractionInside : ∀ digits ∈ fraction,
      digits ≠ [] ∧ ∀ c ∈ digits, c.isDigit = true)
    (written : whole ≠ [])
    (coefficient : ofDigits (whole ++ fraction.getD []) =
      number.coefficient)
    (exponent : power - (fraction.getD []).length = number.exponent) :
    number.SpelledBy (whole ++ (Numeral.fractionSpelling fraction ++
      'e' :: (signText (power < 0) ++ digitsOf power.natAbs))) := by
  refine ⟨⟨whole, fraction, some (writtenPower power)⟩, ?_, ?_, ?_⟩
  · simp [Numeral.spelling, spelling_writtenPower]
  · refine ⟨wholeInside, fractionInside, ?_, Or.inl written⟩
    rintro exponent ⟨⟩
    exact ⟨digitsOf_ne_nil _, fun _ => isDigit_of_mem_digitsOf⟩
  · simp [Numeral.value, toRat, value_writtenPower, coefficient, exponent]

/-- Scientific notation is a literal of the number. -/
theorem spelledBy_scientific (number : Decimal) :
    number.SpelledBy number.scientific := by
  have inside : ∀ c ∈ digitsOf number.coefficient, c.isDigit = true :=
    fun _ => isDigit_of_mem_digitsOf
  have written := digitsOf_ne_nil number.coefficient
  have value := ofDigits_digitsOf number.coefficient
  simp only [scientific]
  generalize digitsOf number.coefficient = digits at inside written value ⊢
  match digits with
  | [] => exact absurd rfl written
  | [only] =>
      have spelled := spelledBy_power number [only] none
        (number.exponent + [only].length - 1) inside (by simp)
        written value (by simp)
      simpa [Numeral.fractionSpelling] using spelled
  | first :: second :: rest =>
      have spelled := spelledBy_power number [first]
        (some (second :: rest))
        (number.exponent + (first :: second :: rest).length - 1)
        (by simpa using inside first (by simp))
        (by
          rintro digits ⟨⟩
          exact ⟨by simp, fun c member => inside c (by simp [member])⟩)
        (by simp) value (by simp; omega)
      simpa [Numeral.fractionSpelling] using spelled

/-- The display form is a literal of the number. -/
theorem spelledBy_displayed (number : Decimal) :
    number.SpelledBy number.displayed := by
  rw [displayed]
  split
  · split
    · next whole => exact spelledBy_positional_zero whole
    · rw [List.append_nil]
      exact spelledBy_positional number
  · exact spelledBy_scientific number

/-- A literal that spells a number inside the rounding interval of a finite
float denotes the float. -/
theorem SpelledBy.exists_toFloat_eq {text : List Char} {rank : Nat}
    (spelled : number.SpelledBy text)
    (rounds : Binary64.RoundsTo number.count rank)
    (finite : rank < Binary64.infinityRank) :
    ∃ numeral : Numeral,
      numeral.spelling = text ∧ numeral.Literal ∧
        numeral.toFloat = Binary64.signed false rank := by
  obtain ⟨numeral, spelling, literal, value⟩ := spelled
  have same : numeral.value.count = number.count :=
    congrArg (· * (Binary64.one : ℚ)) value
  rw [← same] at rounds
  refine ⟨numeral, spelling, literal, ?_⟩
  rw [Numeral.toFloat, toFloat, nearestRank_eq_of_roundsTo rounds finite]

end

end Decimal

end Calculator

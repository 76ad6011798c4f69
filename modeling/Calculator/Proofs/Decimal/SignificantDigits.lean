import Calculator.Proofs.Decimal.Layout
import Calculator.Proofs.Lexing.Number
import Mathlib.Data.List.DropRight

/-!
# Significant digits

The significant digits of a numeral are its digits without the zeros at their
beginning and at their end, whatever the place of the point and the exponent
are.  They are as few as a coefficient of the same number can have: the number
is a coefficient of so many digits times a power of ten, and every other
coefficient of it has as many digits or more.
-/

namespace Calculator

open Decimal

/-- The digits between the zeros at both ends. -/
def betweenZeros (digits : List Char) : List Char :=
  (digits.dropWhile (· == '0')).rdropWhile (· == '0')

namespace Numeral

/-- The number of digits of a numeral, without zeros at the beginning and at
the end. -/
def significantDigits (numeral : Numeral) : Nat :=
  (betweenZeros (numeral.whole ++ numeral.fraction.getD [])).length

/-! ## Rows of digits -/

variable {digits : List Char} {digit : Char}

theorem ofDigits_cons (digit : Char) (digits : List Char) :
    ofDigits (digit :: digits) =
      (digit.toNat - 48) * 10 ^ digits.length + ofDigits digits := by
  have split := ofDigits_append [digit] digits
  have single : ofDigits [digit] = digit.toNat - 48 :=
    Nat.zero_add (digit.toNat - 48)
  rwa [single] at split

theorem ofDigits_lt (inside : ∀ c ∈ digits, c.isDigit = true) :
    ofDigits digits < 10 ^ digits.length := by
  induction digits with
  | nil => exact Nat.one_pos
  | cons digit digits ih =>
      have bounds := Lexeme.isDigit_iff.mp (inside digit (by simp))
      have rest := ih fun c member => inside c (by simp [member])
      have most : (digit.toNat - 48) * 10 ^ digits.length ≤
          9 * 10 ^ digits.length :=
        Nat.mul_le_mul_right _ (by omega)
      rw [ofDigits_cons, List.length_cons, Nat.pow_succ']
      omega

theorem toNat_sub_pos_of_ne_zero (isDigit : digit.isDigit = true)
    (nonzero : digit ≠ '0') :
    0 < digit.toNat - 48 ∧ digit.toNat - 48 < 10 := by
  have bounds := Lexeme.isDigit_iff.mp isDigit
  have other : digit.toNat ≠ 48 := by
    intro same
    exact nonzero (Char.toNat_inj.mp same)
  omega

/-- A first digit other than zero gives the size. -/
theorem ten_pow_length_le_ofDigits (isDigit : digit.isDigit = true)
    (nonzero : digit ≠ '0') (digits : List Char) :
    10 ^ digits.length ≤ ofDigits (digit :: digits) := by
  have positive := (toNat_sub_pos_of_ne_zero isDigit nonzero).1
  rw [ofDigits_cons]
  exact Nat.le_add_right_of_le (Nat.le_mul_of_pos_left _ positive)

/-- A last digit other than zero leaves no factor of ten. -/
theorem not_ten_dvd_ofDigits (isDigit : digit.isDigit = true)
    (nonzero : digit ≠ '0') (digits : List Char) :
    ¬ 10 ∣ ofDigits (digits ++ [digit]) := by
  obtain ⟨positive, small⟩ := toNat_sub_pos_of_ne_zero isDigit nonzero
  rw [ofDigits_append, ofDigits_cons, List.length_nil, List.length_cons,
    List.length_nil, ofDigits_nil]
  omega

/-! ## Zeros at both ends -/

theorem eq_replicate_length (zeros : List Char)
    (inside : ∀ c ∈ zeros, (c == '0') = true) :
    zeros = List.replicate zeros.length '0' :=
  List.eq_replicate_of_mem fun c member => beq_iff_eq.mp (inside c member)

theorem exists_zeros (digits : List Char) :
    ∃ before after,
      digits = List.replicate before '0' ++
        (betweenZeros digits ++ List.replicate after '0') := by
  have front := eq_replicate_length (digits.takeWhile (· == '0'))
    fun c member => List.mem_takeWhile_imp (p := (· == '0')) member
  have back := eq_replicate_length
    ((digits.dropWhile (· == '0')).rtakeWhile (· == '0'))
    fun c member => List.mem_rtakeWhile_imp (p := (· == '0')) member
  refine ⟨(digits.takeWhile (· == '0')).length,
    ((digits.dropWhile (· == '0')).rtakeWhile (· == '0')).length, ?_⟩
  rw [← front, ← back, betweenZeros, List.rdropWhile_append_rtakeWhile,
    List.takeWhile_append_dropWhile]

theorem head_betweenZeros (digits : List Char) {rest : List Char}
    (shape : betweenZeros digits = digit :: rest) : digit ≠ '0' := by
  have isPrefix : betweenZeros digits <+: digits.dropWhile (· == '0') :=
    List.rdropWhile_prefix _ _
  obtain ⟨others, same⟩ := isPrefix
  have first := List.head?_dropWhile_not (· == '0') digits
  rw [← same, shape, List.cons_append, List.head?_cons] at first
  simpa using first

theorem last_betweenZeros (digits : List Char) {front : List Char}
    (shape : betweenZeros digits = front ++ [digit]) : digit ≠ '0' := by
  have nonempty : betweenZeros digits ≠ [] := by simp [shape]
  have last := List.rdropWhile_last_not (· == '0')
    (digits.dropWhile (· == '0')) nonempty
  simpa [← betweenZeros.eq_def, shape] using last

/-- The coefficient that is written between the zeros. -/
structure Core (numeral : Numeral) (core : List Char) (exponent : Int) :
    Prop where
  length : core.length = numeral.significantDigits
  inside : ∀ c ∈ core, c.isDigit = true
  toRat : numeral.toRat = ofDigits core * 10 ^ exponent
  head : ∀ {digit : Char} {rest : List Char},
    core = digit :: rest → digit ≠ '0'
  last : ∀ {digit : Char} {front : List Char},
    core = front ++ [digit] → digit ≠ '0'

theorem exists_core {numeral : Numeral} (literal : numeral.Literal) :
    ∃ core exponent, Core numeral core exponent := by
  have inside : ∀ c ∈ numeral.whole ++ numeral.fraction.getD [],
      c.isDigit = true := by
    intro c member
    rcases List.mem_append.mp member with isWhole | isFraction
    · exact literal.whole c isWhole
    · cases found : numeral.fraction with
      | none => simp [found] at isFraction
      | some written =>
          rw [found] at isFraction
          exact (literal.fraction written found).2 c isFraction
  obtain ⟨before, after, zeros⟩ :=
    exists_zeros (numeral.whole ++ numeral.fraction.getD [])
  refine ⟨betweenZeros (numeral.whole ++ numeral.fraction.getD []),
    after + numeral.value.exponent, rfl, ?_, ?_, head_betweenZeros _,
    last_betweenZeros _⟩
  · intro c member
    apply inside
    rw [zeros]
    exact List.mem_append_right _ (List.mem_append_left _ member)
  · have coefficient : numeral.value.coefficient =
        ofDigits
          (betweenZeros (numeral.whole ++ numeral.fraction.getD [])) *
            10 ^ after := by
      rw [value]
      dsimp only
      conv_lhs => rw [zeros, ofDigits_zeros_append, ofDigits_append]
      rw [List.length_replicate, ← List.append_nil (List.replicate _ _),
        ofDigits_zeros_append, ofDigits_nil, Nat.add_zero]
    rw [← toRat_value, Decimal.toRat, coefficient,
      zpow_add₀ (by norm_num), zpow_natCast]
    push_cast
    ring

/-! ## The fewest digits -/

/-- A coefficient that ends in no zero has the largest exponent, and so is the
smallest coefficient of the number. -/
theorem le_of_not_ten_dvd {core coefficient : Nat} {exponent other : Int}
    (bare : ¬ 10 ∣ core)
    (same : (core * 10 ^ exponent : ℚ) = coefficient * 10 ^ other) :
    core ≤ coefficient := by
  rcases lt_or_ge exponent other with less | le
  · obtain ⟨places, shift⟩ : ∃ places : Nat,
        other = exponent + (places + 1) :=
      ⟨(other - exponent - 1).toNat, by omega⟩
    have tens : (10 : ℚ) ^ exponent ≠ 0 := zpow_ne_zero _ (by norm_num)
    have whole : (core : ℚ) = coefficient * 10 ^ (places + 1) := by
      rw [shift, zpow_add₀ (by norm_num), mul_comm (10 ^ exponent : ℚ),
        ← mul_assoc] at same
      exact mul_right_cancel₀ tens (by exact_mod_cast same)
    have natural : core = coefficient * 10 ^ (places + 1) := by
      exact_mod_cast whole
    refine absurd ?_ bare
    rw [natural, Nat.pow_succ, ← Nat.mul_assoc]
    exact Nat.dvd_mul_left 10 _
  · obtain ⟨places, shift⟩ : ∃ places : Nat, exponent = other + places :=
      ⟨(exponent - other).toNat, by omega⟩
    have tens : (10 : ℚ) ^ other ≠ 0 := zpow_ne_zero _ (by norm_num)
    have whole : (core * 10 ^ places : ℚ) = coefficient := by
      rw [shift, zpow_add₀ (by norm_num), mul_comm (10 ^ other : ℚ),
        ← mul_assoc] at same
      exact mul_right_cancel₀ tens (by exact_mod_cast same)
    have natural : core * 10 ^ places = coefficient := by
      exact_mod_cast whole
    rw [← natural]
    exact Nat.le_mul_of_pos_right _ (Nat.pow_pos (by decide))

/-- The significant digits are as few as those of any coefficient of the
number. -/
theorem significantDigits_le_iff {numeral : Numeral}
    (literal : numeral.Literal) {count : Nat} :
    numeral.significantDigits ≤ count ↔
      ∃ (coefficient : Nat) (exponent : Int),
        coefficient < 10 ^ count ∧
          numeral.toRat = coefficient * 10 ^ exponent := by
  obtain ⟨core, exponent, isCore⟩ := exists_core literal
  rw [← isCore.length]
  constructor
  · intro few
    refine ⟨ofDigits core, exponent, ?_, isCore.toRat⟩
    exact (ofDigits_lt isCore.inside).trans_le
      (Nat.pow_le_pow_right (by decide) few)
  · rintro ⟨coefficient, other, few, same⟩
    rw [isCore.toRat] at same
    rcases List.eq_nil_or_concat core with rfl | ⟨front, last, atEnd⟩
    · exact Nat.zero_le _
    · rw [List.concat_eq_append] at atEnd
      have bare : ¬ 10 ∣ ofDigits core := by
        rw [atEnd]
        exact not_ten_dvd_ofDigits (isCore.inside last (by simp [atEnd]))
          (isCore.last atEnd) front
      have smallest := le_of_not_ten_dvd bare same
      obtain ⟨first, rest, rfl⟩ :=
        List.exists_cons_of_ne_nil (by simp [atEnd] : core ≠ [])
      have size := ten_pow_length_le_ofDigits
        (isCore.inside first (by simp)) (isCore.head rfl) rest
      exact (Nat.pow_lt_pow_iff_right (by decide : 1 < 10)).mp
        (size.trans_lt (smallest.trans_lt few))

end Numeral

end Calculator

import Calculator.Proofs.Binary64.Value
import Calculator.Proofs.Decimal.FewestDigits
import Calculator.Proofs.Decimal.SignificantDigits
import Calculator.Proofs.Evaluation.Display

/-!
# How many digits of a result are shown

The digits that are shown are meant to be the fewest that are read back as the
result.  They need not be: one with twenty-three zeros is halfway between two
floats and is read as the one with the even significand, but that float is
shown with sixteen digits.

What holds is that a numeral with fewer digits is read back only from the very
ends of the interval of numbers that are rounded to the result.  It is closer
to an end than the two hundred and fifty-sixth part of the distance between
the float and the upper end.
-/

namespace Calculator

namespace Binary64

/-! ## The ends of the rounding interval -/

/-- The least number that may be rounded to the magnitude of a rank. -/
def lowerEnd (rank : Nat) : ℚ :=
  (magnitude (rank - 1) + magnitude rank) / (2 * one)

/-- The greatest number that may be rounded to the magnitude of a rank. -/
def upperEnd (rank : Nat) : ℚ :=
  (magnitude rank + magnitude (rank + 1)) / (2 * one)

/-- Half the distance to the next magnitude. -/
def halfStep (rank : Nat) : ℚ :=
  (magnitude (rank + 1) - magnitude rank) / (2 * one)

theorem two_mul_one_pos : (0 : ℚ) < 2 * one :=
  mul_pos two_pos cast_one_pos

theorem lowerEnd_pos {rank : Nat} (positive : 0 < rank) :
    0 < lowerEnd rank := by
  have here : (magnitude 0 : ℚ) < magnitude rank := cast_magnitude_lt positive
  have before : (0 : ℚ) ≤ magnitude (rank - 1) := Nat.cast_nonneg _
  rw [magnitude_zero, Nat.cast_zero] at here
  exact div_pos (by linarith) two_mul_one_pos

/-- The interval of a rank, in terms of the numbers themselves. -/
theorem RoundsTo.between {number : ℚ} {rank : Nat}
    (rounds : RoundsTo (number * one) rank) :
    lowerEnd rank ≤ number ∧ number ≤ upperEnd rank := by
  rw [lowerEnd, upperEnd, div_le_iff₀ two_mul_one_pos,
    le_div_iff₀ two_mul_one_pos]
  constructor
  · linarith [rounds.above]
  · linarith [rounds.below]

theorem halfStep_eq (rank : Nat) :
    halfStep rank = 2 ^ ((doublings rank : Int) - 1074 - 1) := by
  have unit := Decimal.two_zpow_sub_mul_one (doublings rank) 1
  push_cast at unit
  rw [halfStep, div_eq_iff two_mul_one_pos.ne', mul_left_comm, unit,
    magnitude_succ, magnitude]
  push_cast
  ring

theorem upperEnd_eq (rank : Nat) :
    upperEnd rank = (Decimal.upperMidpoint rank).toRat := by
  rw [upperEnd, div_eq_iff two_mul_one_pos.ne', mul_left_comm,
    Decimal.two_mul_upperMidpoint]

theorem lowerEnd_eq {rank : Nat} (positive : 0 < rank)
    (regular : doublings rank ≠ 0 ∨ significand rank ≠ 2 ^ 52) :
    lowerEnd rank = (Decimal.lowerMidpoint rank).toRat := by
  rw [lowerEnd, div_eq_iff two_mul_one_pos.ne', mul_left_comm,
    Decimal.two_mul_lowerMidpoint positive regular]

end Binary64

namespace Decimal

open Binary64

/-! ## The least float with all bits -/

/-- The interval of the least float with all bits lies between two neighbours
of sixteen digits, and above all other numbers of sixteen digits that are not
counts of the last of these digits. -/
theorem least_interval_bounds :
    2225073858507201 * (2 * one) < (2 ^ 53 - 1) * 10 ^ 323 ∧
      (2 ^ 53 + 1) * 10 ^ 323 < 2225073858507202 * (2 * one) ∧
        2 * one < (2 ^ 53 - 1) * 10 ^ 308 := by
  decide +kernel

/-- A number below the last of sixteen digits that can be written. -/
theorem mul_ten_zpow_lt_one {coefficient : Nat} {exponent : Int}
    (few : coefficient < 10 ^ 16) (tiny : exponent < -323) :
    (coefficient * 10 ^ exponent * (10 ^ 308 : Nat) : ℚ) < 1 := by
  have digits : (coefficient : ℚ) < 10 ^ (16 : Int) := by
    exact_mod_cast few
  have power : (10 : ℚ) ^ exponent ≤ 10 ^ (-324 : Int) :=
    zpow_le_zpow_right₀ (by norm_num) (by omega)
  have tens : ((10 ^ 308 : Nat) : ℚ) = 10 ^ (308 : Int) :=
    (Nat.cast_pow 10 308).trans (zpow_natCast 10 308).symm
  rw [tens]
  calc (coefficient * 10 ^ exponent * 10 ^ (308 : Int) : ℚ)
      < 10 ^ (16 : Int) * 10 ^ exponent * 10 ^ (308 : Int) := by
        gcongr
    _ ≤ 10 ^ (16 : Int) * 10 ^ (-324 : Int) * 10 ^ (308 : Int) := by
        gcongr
    _ = 1 := by
        rw [← zpow_add₀ (by norm_num), ← zpow_add₀ (by norm_num)]
        rfl

section

variable {number : ℚ} {steps : Nat}

/-- The ends of an interval bound the multiples of its numbers. -/
theorem mul_le_of_le (scale : Nat) (le : (steps : ℚ) ≤ 2 * (number * one)) :
    ((steps * scale : Nat) : ℚ) ≤ number * scale * (2 * one : Nat) := by
  have scaled := mul_le_mul_of_nonneg_right le (Nat.cast_nonneg' scale)
  push_cast
  linarith

theorem le_mul_of_le (scale : Nat) (le : 2 * (number * one) ≤ steps) :
    number * scale * (2 * one : Nat) ≤ ((steps * scale : Nat) : ℚ) := by
  have scaled := mul_le_mul_of_nonneg_right le (Nat.cast_nonneg' scale)
  push_cast
  linarith

end

/-- A number of sixteen digits with a smaller exponent is below the
interval. -/
theorem exponent_of_above_least {coefficient : Nat} {exponent : Int}
    (few : coefficient < 10 ^ 16)
    (fromBelow : ((2 ^ 53 - 1 : Nat) : ℚ) ≤
      2 * (coefficient * 10 ^ exponent * one)) :
    -323 ≤ exponent := by
  by_contra tiny
  have units : (0 : ℚ) < (2 * one : Nat) :=
    Nat.cast_pos.mpr (Nat.mul_pos two_pos (Nat.cast_pos.mp cast_one_pos))
  have scaled := (mul_le_of_le (10 ^ 308) fromBelow).trans_lt
    (mul_lt_mul_of_pos_right (mul_ten_zpow_lt_one few (not_le.mp tiny)) units)
  rw [one_mul, Nat.cast_lt] at scaled
  exact Nat.lt_asymm least_interval_bounds.2.2 scaled

/-- A count of the last of these digits is not within the interval. -/
theorem not_within_least {coefficient places : Nat}
    (fromBelow : ((2 ^ 53 - 1 : Nat) : ℚ) ≤
      2 * (coefficient * 10 ^ ((places : Int) - 323) * one)) :
    ¬ 2 * (coefficient * 10 ^ ((places : Int) - 323) * one) ≤
      ((2 ^ 53 + 1 : Nat) : ℚ) := by
  intro fromAbove
  obtain ⟨lower, upper, -⟩ := least_interval_bounds
  have counted : (coefficient * 10 ^ ((places : Int) - 323) *
      (10 ^ 323 : Nat) : ℚ) = (coefficient * 10 ^ places : Nat) := by
    have tens : ((10 ^ 323 : Nat) : ℚ) = 10 ^ (323 : Int) :=
      (Nat.cast_pow 10 323).trans (zpow_natCast 10 323).symm
    rw [tens, mul_assoc, ← zpow_add₀ (by norm_num), sub_add_cancel,
      zpow_natCast]
    push_cast
    rfl
  have least := mul_le_of_le (10 ^ 323) fromBelow
  have most := le_mul_of_le (10 ^ 323) fromAbove
  rw [counted, ← Nat.cast_mul, Nat.cast_le] at least most
  have more := Nat.lt_of_mul_lt_mul_right (lower.trans_le least)
  have fewer := Nat.lt_of_mul_lt_mul_right (most.trans_lt upper)
  omega

/-- No number of sixteen digits is rounded to the least float with all
bits. -/
theorem not_roundsTo_least {coefficient : Nat} {exponent : Int}
    (few : coefficient < 10 ^ 16) :
    ¬ RoundsTo (coefficient * 10 ^ exponent * one) (2 ^ 52) := by
  rintro ⟨above, below, -⟩
  have before : magnitude (2 ^ 52 - 1) = 2 ^ 52 - 1 := by decide
  have here : magnitude (2 ^ 52) = 2 ^ 52 := by decide
  have after : magnitude (2 ^ 52 + 1) = 2 ^ 52 + 1 := by decide
  have fromBelow : ((2 ^ 53 - 1 : Nat) : ℚ) ≤
      2 * (coefficient * 10 ^ exponent * one) := by
    rw [before, here] at above
    exact (by norm_num : _ = _).trans_le above
  have fromAbove : 2 * (coefficient * 10 ^ exponent * one) ≤
      ((2 ^ 53 + 1 : Nat) : ℚ) := by
    rw [here, after] at below
    exact below.trans_eq (by norm_num)
  have notTiny := exponent_of_above_least few fromBelow
  obtain ⟨places, rfl⟩ : ∃ places : Nat, exponent = places - 323 :=
    ⟨(exponent + 323).toNat, by omega⟩
  exact not_within_least fromBelow fromAbove

theorem coefficient_short_least :
    (short (2 ^ 52)).coefficient = 22250738585072014 := by
  decide +kernel

/-! ## Numbers that denote a float -/

/-- A decimal number that denotes a finite float is rounded to its
magnitude. -/
theorem roundsTo_of_toFloat_eq {number : Decimal} {rank : Nat}
    (finite : rank < infinityRank)
    (same : number.toFloat = signed false rank) :
    RoundsTo number.count rank := by
  obtain ⟨other, rounds⟩ := number.exists_roundsTo
  have denoted := nearestRank_eq_min rounds
  rw [toFloat, denoted] at same
  have found := ofFloat_signed_of_lt false finite
  rw [← same] at found
  rcases Nat.lt_or_ge other infinityRank with small | large
  · rw [Nat.min_eq_right small.le, ofFloat_signed_of_lt false small] at found
    cases found
    exact rounds
  · rw [Nat.min_eq_left large, ofFloat_signed_infinityRank] at found
    cases found

variable {rank : Nat}

/-- A number with fewer digits than the short decimal of a float that denotes
the float is close to an end of its interval. -/
theorem near_end_of_few (positive : 0 < rank) (finite : rank < infinityRank)
    {coefficient digits : Nat} {exponent : Int}
    (few : coefficient < 10 ^ digits)
    (many : 10 ^ digits ≤ (short rank).coefficient)
    (rounds : RoundsTo (coefficient * 10 ^ exponent * one) rank) :
    (coefficient * 10 ^ exponent : ℚ) < lowerEnd rank + halfStep rank / 256 ∨
      upperEnd rank - halfStep rank / 256 < coefficient * 10 ^ exponent := by
  have something : 0 < coefficient := by
    rw [Nat.pos_iff_ne_zero]
    rintro rfl
    have above := rounds.between.1
    rw [Nat.cast_zero, zero_mul] at above
    exact absurd above (not_le.mpr (lowerEnd_pos positive))
  have near := near_midpoint_of_few finite exponent something few many
  rw [← halfStep_eq, ← upperEnd_eq] at near
  by_cases regular : doublings rank ≠ 0 ∨ significand rank ≠ 2 ^ 52
  · rwa [lowerEnd_eq positive regular]
  · obtain ⟨doubled, least⟩ := not_or.mp regular
    rw [not_not] at doubled least
    have isLeast := doublings_add_significand rank
    rw [doubled, least, Nat.zero_mul, Nat.zero_add] at isLeast
    subst isLeast
    rw [coefficient_short_least] at many
    have short : 10 ^ digits < 10 ^ 17 := many.trans_lt (by decide)
    have digitsLe : digits ≤ 16 := Nat.le_of_lt_succ
      ((Nat.pow_lt_pow_iff_right (by decide)).mp short)
    have fewer := few.trans_le (Nat.pow_le_pow_right (by decide) digitsLe)
    exact absurd rounds (not_roundsTo_least fewer)

end Decimal

open Binary64

/-! ## Results that are shown -/

/-- The result is shown as a literal that is read back.  A literal with fewer
significant digits that is read back too denotes a number at one of the ends
of the interval that is rounded to the result. -/
theorem display_fewest_digits (number : Float)
    (finite : number.isFinite = true) (nonzero : toRat number ≠ 0) :
    ∃ negative rank, ∃ shown : Numeral,
      ofFloat number = .finite negative rank ∧
        (Decimal.display number).toList =
          Decimal.signText negative ++ shown.spelling ∧
        shown.Literal ∧ shown.toFloat = number.abs ∧
        ∀ other : Numeral, other.Literal → other.toFloat = number.abs →
          other.significantDigits < shown.significantDigits →
            (lowerEnd rank ≤ other.toRat ∧
                other.toRat < lowerEnd rank + halfStep rank / 256) ∨
              (upperEnd rank - halfStep rank / 256 < other.toRat ∧
                other.toRat ≤ upperEnd rank) := by
  obtain ⟨negative, rank, found⟩ := isFinite_iff.mp finite
  have positive := (toRat_ne_zero_iff found).mp nonzero
  have below := lt_of_ofFloat found
  have magnitude : number.abs = signed false rank :=
    eq_signed_of_ofFloat (ofFloat_abs found)
  have printed : (Decimal.display number).toList =
      Decimal.signText negative ++ (Decimal.short rank).displayed := by
    simp only [Decimal.display, found, String.toList_ofList,
      if_neg positive.ne']
  obtain ⟨shown, spelled, literal, value⟩ :=
    (Decimal.short rank).spelledBy_displayed
  have readBack : shown.toFloat = number.abs := by
    have rounds := Decimal.roundsTo_short positive below
    rw [Decimal.count, ← value] at rounds
    rw [magnitude, Numeral.toFloat, Decimal.toFloat,
      Decimal.nearestRank_eq_of_roundsTo rounds below]
  refine ⟨negative, rank, shown, found, by rw [printed, spelled], literal,
    readBack, ?_⟩
  intro other otherLiteral otherReadBack fewer
  rw [Numeral.toRat_value] at value
  rw [magnitude] at otherReadBack
  obtain ⟨coefficient, exponent, few, otherValue⟩ :=
    (Numeral.significantDigits_le_iff otherLiteral).mp (Nat.le_refl _)
  have many : 10 ^ other.significantDigits ≤
      (Decimal.short rank).coefficient := by
    by_contra short
    refine Nat.not_le.mpr fewer
      ((Numeral.significantDigits_le_iff literal).mpr ?_)
    exact ⟨_, _, Nat.not_le.mp short, value⟩
  have rounds := Decimal.roundsTo_of_toFloat_eq below otherReadBack
  rw [Decimal.count, Numeral.toRat_value] at rounds
  obtain ⟨least, most⟩ := rounds.between
  rw [otherValue] at rounds
  have near := Decimal.near_end_of_few positive below few many rounds
  rw [← otherValue] at near
  exact near.imp (fun lower => ⟨least, lower⟩) fun upper => ⟨upper, most⟩

/-- One with twenty-three zeros is such an end: it is halfway between two
floats, and is read as the lower one. -/
theorem display_fewest_digits_halfway :
    (1e23 : Float).isFinite = true ∧ toRat 1e23 ≠ 0 ∧
      ∃ negative rank, ∃ shown : Numeral,
        ofFloat 1e23 = .finite negative rank ∧
          (Decimal.display 1e23).toList =
            Decimal.signText negative ++ shown.spelling ∧
          shown.Literal ∧ shown.toFloat = (1e23 : Float).abs := by
  have found : ofFloat 1e23 = .finite false 4950912855330343670 := rfl
  have finite := isFinite_iff.mpr ⟨_, _, found⟩
  have nonzero := (toRat_ne_zero_iff found).mpr (by decide)
  obtain ⟨negative, rank, shown, isFound, printed, literal, readBack, -⟩ :=
    display_fewest_digits 1e23 finite nonzero
  exact ⟨finite, nonzero, negative, rank, shown, isFound, printed, literal,
    readBack⟩

/-- A numeral with one digit is read back as the float that is shown with
sixteen. -/
theorem display_not_fewest_digits :
    ∃ shown other : Numeral,
      (1e23 : Float).isFinite = true ∧ toRat 1e23 ≠ 0 ∧
        Decimal.display 1e23 = "9.999999999999999e22" ∧
        String.ofList shown.spelling = "9.999999999999999e22" ∧
        shown.Literal ∧ String.ofList other.spelling = "1e23" ∧
        other.Literal ∧
        other.toFloat = 1e23 ∧
        other.significantDigits < shown.significantDigits := by
  have found : ofFloat 1e23 = .finite false 4950912855330343670 := rfl
  have exponent : ∀ last : Char, last.isDigit = true →
      ∀ written ∈ some (NumeralExponent.mk none ['2', last]),
        written.digits ≠ [] ∧ ∀ c ∈ written.digits, c.isDigit = true := by
    rintro last isDigit written ⟨⟩
    simpa using isDigit
  have literal : Numeral.Literal
      ⟨['9'], some (List.replicate 15 '9'), some ⟨none, ['2', '2']⟩⟩ := by
    refine ⟨by simp, ?_, exponent '2' rfl, Or.inl (by simp)⟩
    rintro digits ⟨⟩
    refine ⟨by simp, fun c member => ?_⟩
    rw [List.eq_of_mem_replicate member]
    rfl
  have otherLiteral : Numeral.Literal
      ⟨['1'], none, some ⟨none, ['2', '3']⟩⟩ :=
    ⟨by simp, by simp, exponent '3' rfl, Or.inl (by simp)⟩
  exact ⟨_, _, isFinite_iff.mpr ⟨_, _, found⟩,
    (toRat_ne_zero_iff found).mpr (by decide), rfl, rfl, literal, rfl,
    otherLiteral, by decide +kernel, by decide⟩

end Calculator

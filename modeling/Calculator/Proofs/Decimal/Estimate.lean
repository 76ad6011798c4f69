import Calculator.Decimal.Estimate
import Mathlib.Algebra.Order.Field.Power
import Mathlib.Data.Rat.Cast.Order
import Mathlib.Tactic.FieldSimp
import Mathlib.Tactic.Linarith
import Mathlib.Tactic.NormNum
import Mathlib.Tactic.Positivity
import Mathlib.Tactic.Ring

/-!
# The error of 64-bit estimates

A power of ten is estimated to half a unit of the last of its 64 bits.  A
number of 64 bits that is multiplied by such an estimate is off by less than
one unit of the last bit of the product: one half comes from the estimate,
because the number has no more bits than are dropped, and one half from the
rounding of the product.

The power of ten by which a float is scaled is so small that the unit of the
product is at most one: the product is a natural number over a power of two.
-/

namespace Calculator

/-- Rounding to a whole number moves a quotient by at most one half. -/
theorem abs_div_sub_roundHalfEven_le {numerator denominator : Nat}
    (positive : 0 < denominator) :
    |(numerator : ℚ) / denominator -
        roundHalfEven numerator denominator| ≤ 1 / 2 := by
  have division := Nat.div_add_mod' numerator denominator
  have remaining := Nat.mod_lt numerator positive
  have near :
      2 * (roundHalfEven numerator denominator * denominator) ≤
          2 * numerator + denominator ∧
        2 * numerator ≤
          2 * (roundHalfEven numerator denominator * denominator) +
            denominator := by
    simp only [roundHalfEven]
    split
    · omega
    · rw [Nat.succ_mul (numerator / denominator)]
      omega
  have positive : (0 : ℚ) < denominator := by exact_mod_cast positive
  have above : (2 : ℚ) *
      (roundHalfEven numerator denominator * denominator) ≤
        2 * numerator + denominator := by
    exact_mod_cast near.1
  have below : (2 : ℚ) * numerator ≤
      2 * (roundHalfEven numerator denominator * denominator) +
        denominator := by
    exact_mod_cast near.2
  rw [abs_le, le_sub_iff_add_le, sub_le_iff_le_add,
    le_div_iff₀ positive, div_le_iff₀ positive]
  constructor <;> linarith

namespace Decimal.Estimate

/-- The number itself. -/
def toRat (estimate : Estimate) : ℚ :=
  estimate.significand * 2 ^ estimate.exponent

/-! ## Normalisation -/

/-- Normalisation does not change the number. -/
@[simp]
theorem toRat_normalize (estimate : Estimate) :
    estimate.normalize.toRat = estimate.toRat := by
  simp only [toRat, normalize]
  rw [Nat.cast_mul, Nat.cast_pow, Nat.cast_ofNat, ← zpow_natCast,
    mul_assoc, ← zpow_add₀ (by norm_num), add_sub_cancel]

theorem significand_normalize_lt {estimate : Estimate}
    (small : estimate.significand < 2 ^ 64) :
    estimate.normalize.significand < 2 ^ 64 := by
  have leading : estimate.significand.log2 ≤ 63 := by
    rcases Nat.eq_zero_or_pos estimate.significand with zero | positive
    · simp [zero]
    · exact Nat.le_of_lt_succ
        ((Nat.log2_lt (Nat.ne_of_gt positive)).mpr small)
  calc estimate.significand * 2 ^ (63 - estimate.significand.log2)
      < 2 ^ (estimate.significand.log2 + 1) *
          2 ^ (63 - estimate.significand.log2) :=
        Nat.mul_lt_mul_of_pos_right Nat.lt_log2_self (Nat.two_pow_pos _)
    _ = 2 ^ 64 := by
        rw [← Nat.pow_add]
        congr 1
        omega

/-! ## Powers of ten -/

/-- A value that is rounded to the significand of an estimate is off by half
a unit of the last bit. -/
theorem abs_sub_toRat_le {estimate : Estimate} {value : ℚ}
    (numerator denominator : Nat) (positive : 0 < denominator)
    (rounded : estimate.significand = roundHalfEven numerator denominator)
    (exact : value = numerator / denominator * 2 ^ estimate.exponent) :
    |value - estimate.toRat| ≤ 1 / 2 * 2 ^ estimate.exponent := by
  have unit : (0 : ℚ) < 2 ^ estimate.exponent := zpow_pos two_pos _
  rw [exact, toRat, rounded, ← sub_mul, abs_mul, abs_of_pos unit]
  exact mul_le_mul_of_nonneg_right
    (abs_div_sub_roundHalfEven_le positive) unit.le

/-- A power of ten that is a whole number. -/
theorem zpow_of_nonneg {power : Int} (whole : 0 ≤ power) :
    (10 : ℚ) ^ power = (10 ^ power.natAbs : Nat) := by
  rw [Nat.cast_pow, Nat.cast_ofNat, ← zpow_natCast,
    Int.natAbs_of_nonneg whole]

/-- A power of ten below one. -/
theorem zpow_of_neg {power : Int} (negative : power < 0) :
    (10 : ℚ) ^ power = 1 / (10 ^ power.natAbs : Nat) := by
  rw [Nat.cast_pow, Nat.cast_ofNat, ← zpow_natCast, one_div, ← zpow_neg]
  congr 1
  omega

/-- A power of ten is estimated to half a unit of the last bit. -/
theorem abs_zpow_sub_powerOfTen_le (power : Int) :
    |(10 : ℚ) ^ power - (powerOfTen power).toRat| ≤
      1 / 2 * 2 ^ (powerOfTen power).exponent := by
  by_cases whole : 0 ≤ power
  · refine abs_sub_toRat_le (10 ^ power.natAbs * 2 ^ 63)
      (2 ^ (10 ^ power.natAbs).log2) (Nat.two_pow_pos _) ?_ ?_
    · simp only [powerOfTen, if_pos whole]
    · simp only [powerOfTen, if_pos whole]
      rw [zpow_of_nonneg whole, zpow_sub₀ two_ne_zero, zpow_natCast,
        Nat.cast_mul, Nat.cast_pow 2, Nat.cast_pow 2]
      field_simp
      exact mul_comm _ _
  · refine abs_sub_toRat_le (2 ^ (64 + (10 ^ power.natAbs).log2))
      (10 ^ power.natAbs) (Nat.pow_pos (by decide)) ?_ ?_
    · simp only [powerOfTen, if_neg whole]
    · simp only [powerOfTen, if_neg whole]
      rw [zpow_of_neg (Int.not_le.mp whole), zpow_neg, Nat.cast_pow 2,
        ← zpow_natCast, Nat.cast_add]
      field_simp
      rfl

/-- The estimate of a power of ten has its highest bit set. -/
theorem two_zpow_le_zpow (power : Int) :
    (2 : ℚ) ^ (63 + (powerOfTen power).exponent) ≤ 10 ^ power := by
  have positive : 10 ^ power.natAbs ≠ 0 := by positivity
  by_cases whole : 0 ≤ power
  · simp only [powerOfTen, if_pos whole]
    rw [zpow_of_nonneg whole, add_sub_cancel, zpow_natCast]
    exact_mod_cast Nat.log2_self_le positive
  · simp only [powerOfTen, if_neg whole]
    have exponent : (63 : Int) - (64 + (10 ^ power.natAbs).log2) =
        -((10 ^ power.natAbs).log2 + 1 : Nat) := by
      omega
    rw [zpow_of_neg (Int.not_le.mp whole), ← sub_eq_add_neg, exponent,
      zpow_neg, zpow_natCast, ← one_div]
    refine one_div_le_one_div_of_le (by positivity) ?_
    exact_mod_cast Nat.le_of_lt Nat.lt_log2_self

/-! ## Products -/

/-- The unit of a product, out of the units of its factors. -/
theorem two_zpow_exponent_mul (first second : Estimate) :
    (2 : ℚ) ^ (first.mul second).exponent =
      2 ^ first.exponent * 2 ^ second.exponent * 2 ^ 64 := by
  simp only [mul]
  rw [zpow_add₀ two_ne_zero, zpow_add₀ two_ne_zero]
  rfl

/-- The product of two estimates is rounded to half a unit of its last bit. -/
theorem abs_mul_sub_toRat_mul_le (first second : Estimate) :
    |first.toRat * second.toRat - (first.mul second).toRat| ≤
      1 / 2 * 2 ^ (first.mul second).exponent := by
  have unit : (0 : ℚ) < 2 ^ (first.mul second).exponent :=
    zpow_pos two_pos _
  have near : first.significand * second.significand ≤
        (first.mul second).significand * 2 ^ 64 + 2 ^ 63 ∧
      (first.mul second).significand * 2 ^ 64 ≤
        first.significand * second.significand + 2 ^ 63 := by
    simp only [mul]
    omega
  have below : (first.significand * second.significand : ℚ) ≤
      (first.mul second).significand * 2 ^ 64 + 2 ^ 63 := by
    exact_mod_cast near.1
  have above : ((first.mul second).significand * 2 ^ 64 : ℚ) ≤
      first.significand * second.significand + 2 ^ 63 := by
    exact_mod_cast near.2
  have exact : first.toRat * second.toRat =
      first.significand * second.significand / 2 ^ 64 *
        2 ^ (first.mul second).exponent := by
    rw [two_zpow_exponent_mul, toRat, toRat]
    ring
  rw [exact, toRat, ← sub_mul, abs_mul, abs_of_pos unit]
  refine mul_le_mul_of_nonneg_right ?_ unit.le
  rw [abs_le]
  constructor <;> linarith

/-- A number of 64 bits times the estimate of a power of ten is less than one
unit of the last bit off. -/
theorem abs_mul_zpow_sub_toRat_lt {first : Estimate} (power : Int)
    (small : first.significand < 2 ^ 64) :
    |first.toRat * 10 ^ power - (first.mul (powerOfTen power)).toRat| <
      2 ^ (first.mul (powerOfTen power)).exponent := by
  have unit : (0 : ℚ) < 2 ^ first.exponent := zpow_pos two_pos _
  have scaleUnit : (0 : ℚ) < 2 ^ (powerOfTen power).exponent :=
    zpow_pos two_pos _
  have positive : (0 : ℚ) ≤ first.toRat :=
    mul_nonneg (Nat.cast_nonneg _) unit.le
  have bounded : first.toRat < 2 ^ 64 * 2 ^ first.exponent := by
    refine mul_lt_mul_of_pos_right ?_ unit
    exact_mod_cast small
  have estimated : |first.toRat * 10 ^ power -
      first.toRat * (powerOfTen power).toRat| <
        1 / 2 * 2 ^ (first.mul (powerOfTen power)).exponent :=
    calc |first.toRat * 10 ^ power -
            first.toRat * (powerOfTen power).toRat|
        = first.toRat * |(10 : ℚ) ^ power - (powerOfTen power).toRat| := by
          rw [← mul_sub, abs_mul, abs_of_nonneg positive]
      _ ≤ first.toRat * (1 / 2 * 2 ^ (powerOfTen power).exponent) :=
          mul_le_mul_of_nonneg_left (abs_zpow_sub_powerOfTen_le power)
            positive
      _ < 2 ^ 64 * 2 ^ first.exponent *
            (1 / 2 * 2 ^ (powerOfTen power).exponent) :=
          mul_lt_mul_of_pos_right bounded (by linarith)
      _ = 1 / 2 * 2 ^ (first.mul (powerOfTen power)).exponent := by
          rw [two_zpow_exponent_mul]
          ring
  have rounded := abs_mul_sub_toRat_mul_le first (powerOfTen power)
  have triangle := abs_sub_le (first.toRat * 10 ^ power)
    (first.toRat * (powerOfTen power).toRat)
    (first.mul (powerOfTen power)).toRat
  linarith

/-- The true product is between the neighbours of the rounded one. -/
theorem mul_powerOfTen_bounds {first : Estimate} (power : Int)
    (small : first.significand < 2 ^ 64) :
    ((first.mul (powerOfTen power)).significand - 1) *
          2 ^ (first.mul (powerOfTen power)).exponent <
        first.toRat * (10 : ℚ) ^ power ∧
      first.toRat * (10 : ℚ) ^ power <
        ((first.mul (powerOfTen power)).significand + 1) *
          2 ^ (first.mul (powerOfTen power)).exponent := by
  have near := abs_mul_zpow_sub_toRat_lt power small
  rw [abs_lt, toRat.eq_def (first.mul (powerOfTen power))] at near
  constructor <;> linarith

/-! ## The scaling power -/

/-- Ten bits are more than three decimal places. -/
theorem three_mul_log2_ten_pow_le (places : Nat) :
    3 * (10 ^ places).log2 ≤ 10 * places := by
  have power : 2 ^ (10 ^ places).log2 ≤ 10 ^ places :=
    Nat.log2_self_le (Nat.ne_of_gt (Nat.pow_pos (by decide)))
  refine (Nat.pow_le_pow_iff_right (by decide : 1 < 2)).mp ?_
  calc 2 ^ (3 * (10 ^ places).log2)
      = (2 ^ (10 ^ places).log2) ^ 3 := by rw [Nat.mul_comm, Nat.pow_mul]
    _ ≤ (10 ^ places) ^ 3 := Nat.pow_le_pow_left power 3
    _ = (10 ^ 3) ^ places := Nat.pow_right_comm 10 places 3
    _ ≤ (2 ^ 10) ^ places := Nat.pow_le_pow_left (by norm_num) places
    _ = 2 ^ (10 * places) := (Nat.pow_mul 2 10 places).symm

/-- Thirty-three bits are fewer than ten decimal places. -/
theorem lt_ten_mul_log2_ten_pow (places : Nat) :
    33 * places < 10 * ((10 ^ places).log2 + 1) := by
  have power : 10 ^ places < 2 ^ ((10 ^ places).log2 + 1) :=
    Nat.lt_log2_self
  generalize (10 ^ places).log2 + 1 = bits at power ⊢
  refine (Nat.pow_lt_pow_iff_right (by decide : 1 < 2)).mp ?_
  calc 2 ^ (33 * places) = (2 ^ 33) ^ places := Nat.pow_mul 2 33 places
    _ ≤ (10 ^ 10) ^ places := Nat.pow_le_pow_left (by norm_num) places
    _ = (10 ^ places) ^ 10 := Nat.pow_right_comm 10 10 places
    _ < (2 ^ bits) ^ 10 := Nat.pow_lt_pow_left power (by decide)
    _ = 2 ^ (10 * bits) := by rw [Nat.mul_comm, Nat.pow_mul]

/-- The unit of a scaled float is at most one. -/
theorem exponent_scaled_nonpos {estimate : Estimate}
    (above : -1138 ≤ estimate.exponent) (below : estimate.exponent ≤ 961) :
    (estimate.mul (powerOfTen (scalingPower estimate.exponent))).exponent ≤
      0 := by
  have most :=
    three_mul_log2_ten_pow_le (scalingPower estimate.exponent).natAbs
  have least :=
    lt_ten_mul_log2_ten_pow (scalingPower estimate.exponent).natAbs
  simp only [mul, powerOfTen]
  generalize estimate.exponent = exponent at *
  generalize (10 ^ (scalingPower exponent).natAbs).log2 = bits at *
  split
  · next whole =>
      simp only [scalingPower] at most least whole ⊢
      omega
  · next negative =>
      simp only [scalingPower] at most least negative ⊢
      omega

end Decimal.Estimate

end Calculator

import Calculator.Decimal.Closest
import Calculator.Proofs.Binary64.Rounding
import Mathlib.Algebra.Order.Field.Power
import Mathlib.Tactic.FieldSimp
import Mathlib.Tactic.NormNum
import Mathlib.Tactic.Positivity
import Mathlib.Tactic.Ring

/-!
# Decimal numbers that denote a float

Which float a decimal number denotes depends on the number alone, not on the
coefficient and the exponent by which it is given.  It is the float whose
rounding interval contains the number.

The closest shortest decimal of a float is searched inside that interval, so
it denotes the float.
-/

namespace Calculator

namespace Decimal

/-- The number itself. -/
def toRat (number : Decimal) : ℚ :=
  number.coefficient * 10 ^ number.exponent

/-- The number as a count of the smallest positive magnitude. -/
def count (number : Decimal) : ℚ := number.toRat * Binary64.one

/-- Three bits are fewer than one decimal place. -/
theorem two_pow_lt_ten_pow {bits places : Nat} (positive : 0 < places)
    (fewer : bits ≤ 3 * places) : (2 : ℚ) ^ bits < 10 ^ places :=
  calc (2 : ℚ) ^ bits ≤ 2 ^ (3 * places) :=
        pow_le_pow_right₀ one_le_two fewer
    _ = 8 ^ places := by rw [pow_mul]; norm_num
    _ < 10 ^ places :=
        pow_lt_pow_left₀ (by norm_num) (by norm_num)
          (Nat.ne_of_gt positive)

/-- Ninety-three bits are fewer than twenty-eight decimal places, however
often. -/
theorem two_pow_lt_ten_pow_of_blocks (blocks bits places : Nat)
    (fewer : (2 : ℚ) ^ bits < 10 ^ places) :
    (2 : ℚ) ^ (93 * blocks + bits) < 10 ^ (28 * blocks + places) :=
  calc (2 : ℚ) ^ (93 * blocks + bits)
      = (2 ^ 93) ^ blocks * 2 ^ bits := by rw [pow_add, pow_mul]
    _ ≤ (10 ^ 28) ^ blocks * 2 ^ bits := by
        gcongr
        norm_num
    _ < (10 ^ 28) ^ blocks * 10 ^ places := by
        gcongr
    _ = 10 ^ (28 * blocks + places) := by rw [pow_add, pow_mul]

theorem zpow_eq_div (exponent : Int) :
    (10 : ℚ) ^ exponent = 10 ^ exponent.toNat / 10 ^ (-exponent).toNat := by
  rw [← zpow_natCast, ← zpow_natCast, ← zpow_sub₀ (by norm_num)]
  congr 1
  omega

/-- The count as a quotient of natural numbers. -/
theorem count_eq_div (number : Decimal) :
    number.count =
      (number.coefficient * 10 ^ number.exponent.toNat * Binary64.one :
          Nat) /
        (10 ^ (-number.exponent).toNat : Nat) := by
  rw [count, toRat, zpow_eq_div]
  push_cast
  ring

section

variable {number : Decimal} {rank : Nat}

theorem count_eq_zero (zero : number.coefficient = 0) :
    number.count = 0 := by
  rw [count, toRat, zero, Nat.cast_zero, zero_mul, zero_mul]

/-- A number below half the smallest magnitude denotes zero. -/
theorem eq_zero_of_roundsTo {count : ℚ}
    (rounds : Binary64.RoundsTo count rank) (small : 2 * count < 1) :
    rank = 0 := by
  by_contra nonzero
  have least : rank ≤ Binary64.magnitude rank :=
    Binary64.magnitude_strictMono.le_apply
  have one : (1 : ℚ) ≤ Binary64.magnitude rank := by
    exact_mod_cast Nat.le_trans (Nat.pos_of_ne_zero nonzero) least
  have previous : (0 : ℚ) ≤ Binary64.magnitude (rank - 1) :=
    Nat.cast_nonneg _
  linarith [rounds.above]

/-- A number that denotes a finite float is not above infinity's rank. -/
theorem count_le_of_roundsTo {count : ℚ}
    (rounds : Binary64.RoundsTo count rank)
    (finite : rank < Binary64.infinityRank) :
    count ≤ Binary64.magnitude Binary64.infinityRank := by
  have bounded : ∀ {other : Nat}, other ≤ Binary64.infinityRank →
      (Binary64.magnitude other : ℚ) ≤
        Binary64.magnitude Binary64.infinityRank :=
    fun within =>
      Nat.cast_le.mpr (Binary64.magnitude_strictMono.monotone within)
  have here := bounded (Nat.le_of_lt finite)
  have next := bounded finite
  linarith [rounds.below]

theorem toRat_le_of_count_le
    (bounded : number.count ≤ Binary64.magnitude Binary64.infinityRank) :
    number.toRat ≤ 2 ^ 1024 := by
  rw [count, Binary64.magnitude_infinityRank, Nat.cast_mul] at bounded
  exact (le_of_mul_le_mul_right bounded Binary64.cast_one_pos).trans_eq
    (Nat.cast_pow 2 1024)

/-- Large powers of ten are not reached. -/
theorem exponent_le_of_count_le (nonzero : number.coefficient ≠ 0)
    (bounded : number.count ≤ Binary64.magnitude Binary64.infinityRank) :
    number.exponent ≤ 400 := by
  by_contra large
  have digits : (1 : ℚ) ≤ number.coefficient :=
    Nat.one_le_cast.mpr (Nat.pos_of_ne_zero nonzero)
  have power : (10 : ℚ) ^ 400 ≤ 10 ^ number.exponent := by
    rw [← zpow_natCast]
    exact zpow_le_zpow_right₀ (by norm_num)
      (Int.le_of_lt (Int.not_le.mp large))
  have least : (10 : ℚ) ^ 400 ≤ number.toRat :=
    calc (10 : ℚ) ^ 400 = 1 * 10 ^ 400 := (one_mul _).symm
      _ ≤ number.coefficient * 10 ^ number.exponent :=
          mul_le_mul digits power (pow_nonneg (by norm_num) _)
            (Nat.cast_nonneg _)
  exact absurd (least.trans (toRat_le_of_count_le bounded))
    (not_le.mpr (two_pow_lt_ten_pow (by omega) (by omega)))

/-- Half the smallest magnitude has its first digit 324 places after the
point. -/
theorem two_mul_count_lt_one_of_toRat_lt
    (small : number.toRat < 10 ^ (-324 : Int)) :
    2 * number.count < 1 := by
  have power : (2 : ℚ) ^ 1075 < 10 ^ 324 :=
    two_pow_lt_ten_pow_of_blocks 11 52 16 (by norm_num)
  calc 2 * number.count = number.toRat * 2 ^ 1075 := by
        rw [count, Binary64.cast_one, pow_succ' 2 1074, mul_left_comm]
    _ < 10 ^ (-324 : Int) * 2 ^ 1075 :=
        mul_lt_mul_of_pos_right small (pow_pos two_pos _)
    _ < 10 ^ (-324 : Int) * 10 ^ 324 :=
        mul_lt_mul_of_pos_left power (zpow_pos (by norm_num) _)
    _ = 1 := by
        rw [← zpow_natCast, ← zpow_add₀ (by norm_num)]
        rfl

/-- A number that is too small for the powers of ten at hand is below half
the smallest magnitude. -/
theorem two_mul_count_lt_one
    (small : number.exponent + number.coefficient.log2 + 1 < -400) :
    2 * number.count < 1 := by
  have digits : (number.coefficient : ℚ) <
      10 ^ (number.coefficient.log2 + 1) := by
    have binary : number.coefficient < 2 ^ (number.coefficient.log2 + 1) :=
      Nat.lt_log2_self
    exact_mod_cast Nat.lt_of_lt_of_le binary
      (Nat.pow_le_pow_left (by omega) _)
  apply two_mul_count_lt_one_of_toRat_lt
  calc number.toRat
      < 10 ^ (number.coefficient.log2 + 1) * 10 ^ number.exponent :=
        mul_lt_mul_of_pos_right digits (by positivity)
    _ = 10 ^ (number.exponent + number.coefficient.log2 + 1) := by
        rw [← zpow_natCast, ← zpow_add₀ (by norm_num)]
        congr 1
        push_cast
        ring
    _ ≤ 10 ^ (-324 : Int) :=
        zpow_le_zpow_right₀ (by norm_num) (by omega)

/-- A number in the rounding interval of a rank denotes its float, or
infinity. -/
theorem nearestRank_eq_min
    (rounds : Binary64.RoundsTo number.count rank) :
    number.nearestRank = min Binary64.infinityRank rank := by
  rw [nearestRank]
  split
  · next zero =>
      have small : 2 * number.count < 1 := by
        rw [count_eq_zero zero, mul_zero]
        exact zero_lt_one
      rw [eq_zero_of_roundsTo rounds small, Nat.min_zero]
  · next nonzero =>
      split
      · next large =>
          have notFinite : ¬ rank < Binary64.infinityRank :=
            fun finite => Int.not_lt.mpr (exponent_le_of_count_le nonzero
              (count_le_of_roundsTo rounds finite)) large
          exact (Nat.min_eq_left (Nat.not_lt.mp notFinite)).symm
      · split
        · next small =>
            rw [eq_zero_of_roundsTo rounds (two_mul_count_lt_one small),
              Nat.min_zero]
        · rw [count_eq_div] at rounds
          exact Binary64.nearestRank_eq_min (Nat.pow_pos (by decide)) rounds

/-- A number in the rounding interval of a finite float denotes it. -/
theorem nearestRank_eq_of_roundsTo
    (rounds : Binary64.RoundsTo number.count rank)
    (finite : rank < Binary64.infinityRank) :
    number.nearestRank = rank := by
  rw [nearestRank_eq_min rounds, Nat.min_eq_right finite.le]

/-! ## The closest shortest decimal -/

/-- The interval that is searched is the rounding interval of the float. -/
theorem Interval.roundsTo_of_contains {point : Nat}
    (inside : (Interval.ofRank rank).contains point = true) :
    Binary64.RoundsTo ((point : ℚ) / (5 ^ 1074 : Nat)) rank := by
  rw [Binary64.roundsTo_div_iff (Nat.pow_pos (by decide))]
  rw [contains] at inside
  split at inside
  · next even =>
      simp only [Bool.and_eq_true, decide_eq_true_eq] at inside
      exact ⟨inside.1, inside.2, fun _ => by simpa [ofRank] using even⟩
  · simp only [Bool.and_eq_true, decide_eq_true_eq] at inside
    refine ⟨Nat.le_of_lt inside.1, Nat.le_of_lt inside.2, ?_⟩
    rintro (tie | tie)
    · exact absurd tie (Nat.ne_of_lt inside.1)
    · exact absurd tie (Nat.ne_of_lt inside.2)

theorem Interval.contains_magnitude (positive : 0 < rank) :
    (Interval.ofRank rank).contains
      (Binary64.magnitude rank * 5 ^ 1074) = true := by
  have lower : Binary64.magnitude (rank - 1) < Binary64.magnitude rank :=
    Binary64.magnitude_strictMono (Nat.sub_lt positive Nat.one_pos)
  have upper := Binary64.magnitude_lt_succ rank
  have unit : 0 < 5 ^ 1074 := Nat.pow_pos (by decide)
  have above : (Interval.ofRank rank).twiceLower <
      2 * (Binary64.magnitude rank * 5 ^ 1074) := by
    rw [ofRank, ← Nat.mul_assoc]
    exact Nat.mul_lt_mul_of_pos_right (by omega) unit
  have below : 2 * (Binary64.magnitude rank * 5 ^ 1074) <
      (Interval.ofRank rank).twiceUpper := by
    rw [ofRank, ← Nat.mul_assoc]
    exact Nat.mul_lt_mul_of_pos_right (by omega) unit
  rw [contains]
  split
  · simp only [Bool.and_eq_true, decide_eq_true_eq]
    exact ⟨Nat.le_of_lt above, Nat.le_of_lt below⟩
  · simp only [Bool.and_eq_true, decide_eq_true_eq]
    exact ⟨above, below⟩

theorem contains_of_closestOnGrid {interval : Interval}
    {target step point : Nat}
    (found : closestOnGrid interval target step = some point) :
    interval.contains (point * step) = true := by
  simp only [closestOnGrid] at found
  split at found
  · next both =>
      rw [Bool.and_eq_true] at both
      obtain rfl := Option.some.inj found
      split
      · exact both.1
      · exact both.2
  · split at found
    · next below =>
        obtain rfl := Option.some.inj found
        exact below
    · split at found
      · next above =>
          obtain rfl := Option.some.inj found
          exact above
      · cases found

/-- The search ends at a point of the interval. -/
theorem contains_closestFrom {interval : Interval} {target : Nat}
    (inside : interval.contains target = true) (place : Nat) :
    interval.contains
      ((closestFrom interval target place).1 *
        10 ^ (closestFrom interval target place).2) = true := by
  induction place with
  | zero => simpa [closestFrom] using inside
  | succ place ih =>
      rw [closestFrom]
      split
      · next point found => exact contains_of_closestOnGrid found
      · exact ih

/-- The count of a number that is given on one of the grids. -/
theorem count_grid (point place : Nat) :
    count ⟨point, (place : Int) - 1074⟩ =
      ((point * 10 ^ place : Nat) : ℚ) / (5 ^ 1074 : Nat) := by
  have tens : (10 : ℚ) ^ (1074 : Int) = 5 ^ 1074 * 2 ^ 1074 := by
    rw [← mul_pow, ← zpow_natCast]
    norm_num
  have twos : (2 : ℚ) ^ 1074 ≠ 0 := pow_ne_zero _ two_ne_zero
  rw [count, toRat, Binary64.cast_one, zpow_sub₀ (by norm_num),
    zpow_natCast, tens,
    Nat.cast_mul, Nat.cast_pow 10, Nat.cast_pow 5, Nat.cast_ofNat,
    mul_assoc, div_mul_eq_mul_div, mul_div_mul_right _ _ twos,
    mul_div_assoc]
  rfl

/-- The closest shortest decimal of a float denotes the float. -/
theorem roundsTo_closest (rank : Nat) :
    Binary64.RoundsTo (closest rank).count rank := by
  rw [closest]
  split
  · next zero =>
      subst zero
      rw [count_eq_zero rfl]
      exact ⟨by simp, by simp, fun _ => rfl⟩
  · next nonzero =>
      rw [count_grid]
      exact Interval.roundsTo_of_contains (contains_closestFrom
        (Interval.contains_magnitude (Nat.pos_of_ne_zero nonzero)) _)

end

end Decimal

end Calculator

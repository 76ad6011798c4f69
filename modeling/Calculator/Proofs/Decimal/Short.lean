import Calculator.Decimal.Estimate
import Calculator.Proofs.Decimal.Estimate
import Calculator.Proofs.Decimal.Rounding

/-!
# Short decimals denote their float

The digits of a result are cut from the upper bound of an interval.  However
the digits are cut and however often the last one is lowered, the number that
remains is between the bounds.

The bounds are the midpoints to the neighbouring floats, scaled by an estimate
of a power of ten and narrowed by one unit.  The estimate is off by less than
the unit, and the midpoints are many units apart, so that the bounds are in
order and between the true midpoints.  A number between the bounds therefore
denotes the float, and nothing has to be said about how close it is.
-/

namespace Calculator.Decimal

/-! ## Cutting digits -/

namespace ScaledBounds

/-- Lowering the last digit stays within the bounds. -/
theorem add_lowerings_mul_le (width distance unit times : Nat) {rest : Nat}
    (within : rest ≤ width) :
    rest + lowerings width distance unit times rest * unit ≤ width := by
  induction times generalizing rest with
  | zero => simpa [lowerings] using within
  | succ times ih =>
      rw [lowerings]
      split
      · next lower =>
          have next := @ih (rest + unit) (by omega)
          rw [Nat.succ_mul]
          omega
      · simpa using within

/-- What is left of the upper bound, once digits are cut off and the last one
is lowered. -/
theorem lowered_bounds {upper width unit : Nat} (distance times : Nat)
    (narrow : width ≤ upper) (within : upper % unit ≤ width) :
    upper ≤
        (upper / unit -
            lowerings width distance unit times (upper % unit)) * unit +
          width ∧
      (upper / unit -
          lowerings width distance unit times (upper % unit)) * unit ≤
        upper := by
  have division := Nat.div_add_mod' upper unit
  have lowered := add_lowerings_mul_le width distance unit times within
  rw [Nat.sub_mul]
  omega

/-- Where the upper bound is cut before the point, what is cut off is within
the bounds. -/
theorem mod_le_of_wholePlace? {bounds : ScaledBounds} {digits place : Nat}
    (found : bounds.wholePlace? digits = some place) :
    bounds.upper % (10 ^ place * 2 ^ bounds.shift) ≤ bounds.width := by
  induction digits with
  | zero => cases found
  | succ digits ih =>
      rw [wholePlace?] at found
      split at found
      · next within =>
          obtain rfl := Option.some.inj found
          exact within
      · exact ih found

/-- With as many digits after the point as bits nothing is cut off. -/
theorem mul_ten_pow_mod_eq_zero {shift place : Nat} (upper : Nat)
    (enough : shift ≤ place) : upper * 10 ^ place % 2 ^ shift = 0 := by
  have whole : 2 ^ shift ∣ 10 ^ place :=
    (Nat.pow_dvd_pow 2 enough).trans
      (pow_dvd_pow_of_dvd (by decide : 2 ∣ 10) place)
  exact Nat.mod_eq_zero_of_dvd (Dvd.dvd.mul_left whole upper)

/-- Where the upper bound is cut after the point, what is cut off is within
the bounds. -/
theorem mod_le_fractionPlace (bounds : ScaledBounds) {trials place : Nat}
    (enough : bounds.shift ≤ trials + place) :
    bounds.upper * 10 ^ bounds.fractionPlace trials place %
        2 ^ bounds.shift ≤
      bounds.width * 10 ^ bounds.fractionPlace trials place := by
  induction trials generalizing place with
  | zero =>
      rw [fractionPlace, mul_ten_pow_mod_eq_zero bounds.upper (by omega)]
      exact Nat.zero_le _
  | succ trials ih =>
      rw [fractionPlace]
      split
      · next within => exact Nat.le_of_lt within
      · exact ih (by omega)

/-- The number that is cut is between the bounds. -/
theorem cut_bounds (bounds : ScaledBounds)
    (narrow : bounds.width ≤ bounds.upper) :
    (bounds.upper : ℚ) ≤
        bounds.cut.toRat * 2 ^ bounds.shift + bounds.width ∧
      bounds.cut.toRat * 2 ^ bounds.shift ≤ bounds.upper := by
  simp only [cut]
  split
  · next place found =>
      have lowered := lowered_bounds bounds.distance 9 narrow
        (mod_le_of_wholePlace? found)
      generalize bounds.upper / (10 ^ place * 2 ^ bounds.shift) - _ =
        coefficient at lowered ⊢
      rw [toRat, zpow_natCast, mul_assoc]
      exact_mod_cast lowered
  · have within := bounds.mod_le_fractionPlace
      (Nat.le_add_right bounds.shift 1)
    generalize bounds.fractionPlace bounds.shift 1 = place at within ⊢
    have lowered := lowered_bounds
      (if place < 9 then bounds.distance * 10 ^ place else 0) 9
      (Nat.mul_le_mul_right (10 ^ place) narrow) within
    generalize bounds.upper * 10 ^ place / 2 ^ bounds.shift - _ =
      coefficient at lowered ⊢
    have above : (bounds.upper * 10 ^ place : ℚ) ≤
        coefficient * 2 ^ bounds.shift + bounds.width * 10 ^ place := by
      exact_mod_cast lowered.1
    have below : (coefficient * 2 ^ bounds.shift : ℚ) ≤
        bounds.upper * 10 ^ place := by
      exact_mod_cast lowered.2
    have tens : (0 : ℚ) < 10 ^ place := by positivity
    have scaled : toRat ⟨coefficient, -place⟩ * 2 ^ bounds.shift =
        coefficient * 2 ^ bounds.shift / 10 ^ place := by
      rw [toRat, zpow_neg, zpow_natCast, ← div_eq_mul_inv,
        div_mul_eq_mul_div]
    rw [scaled, ← sub_le_iff_le_add, le_div_iff₀ tens, div_le_iff₀ tens]
    exact ⟨by linarith, below⟩

end ScaledBounds

/-! ## The midpoints to the neighbouring floats -/

section

variable {rank : Nat}

/-- The midpoint above the magnitude of a rank, normalised. -/
def upperMidpoint (rank : Nat) : Estimate :=
  .normalize ⟨2 * Binary64.significand rank + 1,
    (Binary64.doublings rank : Int) - 1074 - 1⟩

/-- The midpoint below the magnitude of a nonzero rank. -/
def lowerMidpoint (rank : Nat) : Estimate :=
  if Binary64.significand rank = 2 ^ 52 then
    ⟨4 * Binary64.significand rank - 1,
      (Binary64.doublings rank : Int) - 1074 - 2⟩
  else
    ⟨2 * Binary64.significand rank - 1,
      (Binary64.doublings rank : Int) - 1074 - 1⟩

/-- The midpoint below, in the unit of the midpoint above. -/
def alignedMidpoint (rank : Nat) : Estimate where
  significand := (lowerMidpoint rank).significand *
    2 ^ ((lowerMidpoint rank).exponent -
      (upperMidpoint rank).exponent).toNat
  exponent := (upperMidpoint rank).exponent

theorem toRat_upperMidpoint (rank : Nat) :
    (upperMidpoint rank).toRat =
      (2 * Binary64.significand rank + 1) *
        2 ^ ((Binary64.doublings rank : Int) - 1074 - 1) := by
  rw [upperMidpoint, Estimate.toRat_normalize, Estimate.toRat]
  push_cast
  rfl

/-- Half a step is two quarters of one. -/
theorem half_step_eq (doublings : Nat) :
    (2 : ℚ) ^ ((doublings : Int) - 1074 - 1) =
      2 * 2 ^ ((doublings : Int) - 1074 - 2) := by
  rw [← zpow_one_add₀ two_ne_zero]
  congr 1
  omega

theorem two_zpow_sub_mul_one (doublings bits : Nat) :
    (2 : ℚ) ^ ((doublings : Int) - 1074 - bits) * Binary64.one =
      2 ^ doublings / 2 ^ bits := by
  rw [Binary64.cast_one, ← zpow_natCast, ← zpow_natCast, ← zpow_natCast,
    ← zpow_add₀ two_ne_zero, ← zpow_sub₀ two_ne_zero]
  congr 1
  push_cast
  ring

/-- The midpoint above, as a count of the smallest positive magnitude. -/
theorem two_mul_upperMidpoint (rank : Nat) :
    2 * ((upperMidpoint rank).toRat * Binary64.one) =
      (Binary64.magnitude rank + Binary64.magnitude (rank + 1) : ℚ) := by
  have unit := two_zpow_sub_mul_one (Binary64.doublings rank) 1
  rw [toRat_upperMidpoint, Binary64.magnitude_succ, Binary64.magnitude]
  push_cast at unit ⊢
  rw [mul_assoc _ _ (Binary64.one : ℚ), unit]
  ring

theorem significand_pos (positive : 0 < rank) :
    0 < Binary64.significand rank := by
  have full := Binary64.doublings_eq_zero_or rank
  have whole := Binary64.doublings_add_significand rank
  omega

/-- The midpoint below is the true one, unless the smallest spacing goes on
below the least significand with all bits. -/
theorem two_mul_lowerMidpoint (positive : 0 < rank)
    (regular : Binary64.doublings rank ≠ 0 ∨
      Binary64.significand rank ≠ 2 ^ 52) :
    2 * ((lowerMidpoint rank).toRat * Binary64.one) =
      (Binary64.magnitude (rank - 1) + Binary64.magnitude rank : ℚ) := by
  have steps : 1 ≤ Binary64.significand rank := significand_pos positive
  by_cases least : Binary64.significand rank = 2 ^ 52
  · obtain ⟨spacing, doubled⟩ := Nat.exists_eq_succ_of_ne_zero
      (regular.resolve_right (not_not.mpr least))
    have unit := two_zpow_sub_mul_one (Binary64.doublings rank) 2
    push_cast at unit
    rw [lowerMidpoint, if_pos least, Estimate.toRat,
      mul_assoc _ _ (Binary64.one : ℚ), unit,
      Binary64.magnitude.eq_def rank, least,
      Binary64.magnitude_pred_of_least doubled least, doubled]
    push_cast
    rw [pow_succ]
    norm_num
    linarith
  · have unit := two_zpow_sub_mul_one (Binary64.doublings rank) 1
    have twice : ((2 * Binary64.significand rank - 1 : Nat) : ℚ) =
        2 * Binary64.significand rank - 1 := by
      rw [Nat.cast_sub (by omega)]
      push_cast
      rfl
    push_cast at unit
    rw [lowerMidpoint, if_neg least, Estimate.toRat,
      mul_assoc _ _ (Binary64.one : ℚ), unit, twice,
      Binary64.magnitude.eq_def rank,
      Binary64.magnitude_pred (Or.inr least), Nat.cast_mul,
      Nat.cast_mul, Nat.cast_sub steps]
    push_cast
    linarith

/-- The midpoint below is not under the true one.  Where the smallest spacing
goes on below the least significand with all bits it is nearer to the
float. -/
theorem le_two_mul_lowerMidpoint (positive : 0 < rank) :
    (Binary64.magnitude (rank - 1) + Binary64.magnitude rank : ℚ) ≤
      2 * ((lowerMidpoint rank).toRat * Binary64.one) := by
  by_cases regular : Binary64.doublings rank ≠ 0 ∨
      Binary64.significand rank ≠ 2 ^ 52
  · exact (two_mul_lowerMidpoint positive regular).ge
  · obtain ⟨doubled, least⟩ := not_or.mp regular
    rw [not_not] at doubled least
    have unit := two_zpow_sub_mul_one (Binary64.doublings rank) 2
    push_cast at unit
    rw [lowerMidpoint, if_pos least, Estimate.toRat,
      mul_assoc _ _ (Binary64.one : ℚ), unit,
      Binary64.magnitude.eq_def rank, least,
      Binary64.magnitude_pred (Or.inl doubled), least, doubled]
    norm_num

/-- Normalisation shifts a midpoint by at least ten bits. -/
theorem exponent_upperMidpoint (rank : Nat) :
    (Binary64.doublings rank : Int) - 1138 ≤
        (upperMidpoint rank).exponent ∧
      (upperMidpoint rank).exponent + 10 ≤
        (Binary64.doublings rank : Int) - 1075 := by
  have bound := Binary64.significand_lt rank
  have bits : (2 * Binary64.significand rank + 1).log2 < 54 :=
    (Nat.log2_lt (by omega)).mpr (by omega)
  simp only [upperMidpoint, Estimate.normalize]
  omega

theorem significand_upperMidpoint_lt (rank : Nat) :
    (upperMidpoint rank).significand < 2 ^ 64 := by
  have bound := Binary64.significand_lt rank
  exact Estimate.significand_normalize_lt (by simp only; omega)

/-- Aligning the midpoint below does not change it. -/
theorem toRat_alignedMidpoint (rank : Nat) :
    (alignedMidpoint rank).toRat = (lowerMidpoint rank).toRat := by
  have shifted := (exponent_upperMidpoint rank).2
  have ordered :
      (upperMidpoint rank).exponent ≤ (lowerMidpoint rank).exponent := by
    simp only [lowerMidpoint]
    split <;> simp only <;> omega
  simp only [Estimate.toRat, alignedMidpoint]
  rw [Nat.cast_mul, Nat.cast_pow, Nat.cast_ofNat, ← zpow_natCast,
    mul_assoc, ← zpow_add₀ two_ne_zero]
  congr 2
  omega

/-- The midpoint below is at least half a step below the float. -/
theorem toRat_lowerMidpoint_le (rank : Nat) :
    (lowerMidpoint rank).toRat ≤
      2 * Binary64.significand rank *
        2 ^ ((Binary64.doublings rank : Int) - 1074 - 1) := by
  have fewer : ∀ steps : Nat, ((steps - 1 : Nat) : ℚ) ≤ steps :=
    fun steps => Nat.cast_le.mpr (Nat.sub_le steps 1)
  rw [lowerMidpoint]
  split
  · rw [half_step_eq, Estimate.toRat, ← mul_assoc]
    refine mul_le_mul_of_nonneg_right ((fewer _).trans_eq ?_)
      (zpow_nonneg two_pos.le _)
    push_cast
    ring
  · rw [Estimate.toRat]
    refine mul_le_mul_of_nonneg_right ((fewer _).trans_eq ?_)
      (zpow_nonneg two_pos.le _)
    push_cast
    rfl

/-- The midpoints are many units apart. -/
theorem lowerMidpoint_add_le (rank : Nat) :
    (lowerMidpoint rank).toRat +
        2 ^ ((upperMidpoint rank).exponent + 10) ≤
      (upperMidpoint rank).toRat := by
  have shifted := (exponent_upperMidpoint rank).2
  have unit : (2 : ℚ) ^ ((upperMidpoint rank).exponent + 10) ≤
      2 ^ ((Binary64.doublings rank : Int) - 1074 - 1) :=
    zpow_le_zpow_right₀ one_le_two (by omega)
  linarith [toRat_lowerMidpoint_le rank, toRat_upperMidpoint rank]

theorem significand_alignedMidpoint_lt (rank : Nat) :
    (alignedMidpoint rank).significand < 2 ^ 64 := by
  have unit : (0 : ℚ) < 2 ^ (upperMidpoint rank).exponent :=
    zpow_pos two_pos _
  have apart : (0 : ℚ) < 2 ^ ((upperMidpoint rank).exponent + 10) :=
    zpow_pos two_pos _
  have ordered :
      (alignedMidpoint rank).toRat < (upperMidpoint rank).toRat := by
    have := lowerMidpoint_add_le rank
    rw [toRat_alignedMidpoint]
    linarith
  have less : ((alignedMidpoint rank).significand : ℚ) <
      (upperMidpoint rank).significand :=
    lt_of_mul_lt_mul_right ordered unit.le
  exact (Nat.cast_lt.mp less).trans (significand_upperMidpoint_lt rank)

/-! ## Scaled midpoints -/

/-- The midpoint above, scaled by a power of ten. -/
def scaledUpper (rank : Nat) (power : Int) : Estimate :=
  (upperMidpoint rank).mul (.powerOfTen power)

/-- The midpoint below, scaled by a power of ten. -/
def scaledLower (rank : Nat) (power : Int) : Estimate :=
  (alignedMidpoint rank).mul (.powerOfTen power)

variable (rank : Nat) (power : Int)

/-- The scaled midpoint above is less than one unit off. -/
theorem scaledUpper_bounds :
    ((scaledUpper rank power).significand - 1) *
          2 ^ (scaledUpper rank power).exponent <
        (upperMidpoint rank).toRat * (10 : ℚ) ^ power ∧
      (upperMidpoint rank).toRat * (10 : ℚ) ^ power <
        ((scaledUpper rank power).significand + 1) *
          2 ^ (scaledUpper rank power).exponent :=
  Estimate.mul_powerOfTen_bounds power (significand_upperMidpoint_lt rank)

/-- The scaled midpoint below is less than one unit off. -/
theorem scaledLower_bounds :
    ((scaledLower rank power).significand - 1) *
          2 ^ (scaledUpper rank power).exponent <
        (lowerMidpoint rank).toRat * (10 : ℚ) ^ power ∧
      (lowerMidpoint rank).toRat * (10 : ℚ) ^ power <
        ((scaledLower rank power).significand + 1) *
          2 ^ (scaledUpper rank power).exponent := by
  have near := Estimate.mul_powerOfTen_bounds power
    (significand_alignedMidpoint_lt rank)
  rw [toRat_alignedMidpoint] at near
  exact near

/-- A distance of the true midpoints has many units after scaling. -/
theorem two_pow_nine_units_le :
    (2 : ℚ) ^ 9 * 2 ^ (scaledUpper rank power).exponent ≤
      2 ^ ((upperMidpoint rank).exponent + 10) * 10 ^ power := by
  have units : (2 : ℚ) ^ 9 * 2 ^ (scaledUpper rank power).exponent =
      2 ^ ((upperMidpoint rank).exponent + 10) *
        2 ^ (63 + (Estimate.powerOfTen power).exponent) := by
    rw [← zpow_natCast, ← zpow_add₀ two_ne_zero, ← zpow_add₀ two_ne_zero]
    congr 1
    simp only [scaledUpper, Estimate.mul]
    omega
  rw [units]
  exact mul_le_mul_of_nonneg_left (Estimate.two_zpow_le_zpow power)
    (zpow_nonneg two_pos.le _)

/-- The true midpoints are many units apart after scaling too. -/
theorem lowerMidpoint_mul_add_le :
    (lowerMidpoint rank).toRat * (10 : ℚ) ^ power +
        2 ^ 9 * 2 ^ (scaledUpper rank power).exponent ≤
      (upperMidpoint rank).toRat * 10 ^ power := by
  have units := two_pow_nine_units_le rank power
  have apart := mul_le_mul_of_nonneg_right (lowerMidpoint_add_le rank)
    (zpow_nonneg (by norm_num : (0 : ℚ) ≤ 10) power)
  rw [add_mul] at apart
  linarith

/-- The scaled midpoints are further apart than the units by which they are
off. -/
theorem scaledLower_add_two_lt :
    (scaledLower rank power).significand + 2 <
      (scaledUpper rank power).significand := by
  have unit : (0 : ℚ) < 2 ^ (scaledUpper rank power).exponent :=
    zpow_pos two_pos _
  have apart := lowerMidpoint_mul_add_le rank power
  have below := (scaledLower_bounds rank power).1
  have above := (scaledUpper_bounds rank power).2
  have counted : ((scaledLower rank power).significand - 1 + 2 ^ 9 : ℚ) <
      (scaledUpper rank power).significand + 1 := by
    refine lt_of_mul_lt_mul_right ?_ unit.le
    linarith
  have wide : ((scaledLower rank power).significand + 2 : ℚ) <
      (scaledUpper rank power).significand := by
    linarith
  exact_mod_cast wide

/-- The bounds between which the digits of a float are cut. -/
theorem ofRank_eq :
    ScaledBounds.ofRank rank (.powerOfTen power) =
      { upper := (scaledUpper rank power).significand - 1
        width := ((scaledUpper rank power).significand - 1) -
          ((scaledLower rank power).significand + 1)
        distance := ((scaledUpper rank power).significand - 1) -
          (Estimate.mul (.normalize ⟨Binary64.significand rank,
            (Binary64.doublings rank : Int) - 1074⟩)
              (.powerOfTen power)).significand
        shift := (-(scaledUpper rank power).exponent).toNat } :=
  rfl

theorem width_ofRank_le :
    (ScaledBounds.ofRank rank (.powerOfTen power)).width ≤
      (ScaledBounds.ofRank rank (.powerOfTen power)).upper := by
  rw [ofRank_eq]
  exact Nat.sub_le _ _

/-- The number that is cut is between the scaled midpoints. -/
theorem toRat_cut_bounds
    (whole : (scaledUpper rank power).exponent ≤ 0) :
    (lowerMidpoint rank).toRat * 10 ^ power <
        (ScaledBounds.ofRank rank (.powerOfTen power)).cut.toRat ∧
      (ScaledBounds.ofRank rank (.powerOfTen power)).cut.toRat <
        (upperMidpoint rank).toRat * 10 ^ power := by
  have apart := scaledLower_add_two_lt rank power
  have lower := (scaledLower_bounds rank power).2
  have upper := (scaledUpper_bounds rank power).1
  have unit : (0 : ℚ) < 2 ^ (scaledUpper rank power).exponent :=
    zpow_pos two_pos _
  have cut := ScaledBounds.cut_bounds
    (ScaledBounds.ofRank rank (.powerOfTen power))
    (width_ofRank_le rank power)
  generalize (ScaledBounds.ofRank rank (.powerOfTen power)).cut.toRat =
    number at cut ⊢
  rw [ofRank_eq] at cut
  simp only at cut
  rw [Nat.cast_sub (by omega : (scaledLower rank power).significand + 1 ≤
      (scaledUpper rank power).significand - 1),
    Nat.cast_sub (by omega : 1 ≤ (scaledUpper rank power).significand)]
    at cut
  push_cast at cut
  have counted : number = number *
      2 ^ (-(scaledUpper rank power).exponent).toNat *
        2 ^ (scaledUpper rank power).exponent := by
    rw [← zpow_natCast, Int.toNat_of_nonneg (by omega), mul_assoc,
      ← zpow_add₀ two_ne_zero, neg_add_cancel, zpow_zero, mul_one]
  rw [counted]
  constructor
  · refine lower.trans_le (mul_le_mul_of_nonneg_right ?_ unit.le)
    linarith [cut.1]
  · exact (mul_le_mul_of_nonneg_right cut.2 unit.le).trans_lt upper

/-- A power of ten is undone in the exponent. -/
theorem toRat_sub_mul_zpow (number : Decimal) :
    toRat ⟨number.coefficient, number.exponent - power⟩ * 10 ^ power =
      number.toRat := by
  rw [toRat, toRat, mul_assoc, ← zpow_add₀ (by norm_num), sub_add_cancel]

/-- Another exponent does not change the coefficient.  This is said of any
number, since the kernel would cut the digits of a float to compare them. -/
theorem coefficient_shifted (number : Decimal) :
    (Decimal.mk number.coefficient (number.exponent - power)).coefficient =
      number.coefficient :=
  rfl

theorem short_eq :
    short rank =
      ⟨(ScaledBounds.ofRank rank (.powerOfTen (Estimate.scalingPower
          (upperMidpoint rank).exponent))).cut.coefficient,
        (ScaledBounds.ofRank rank (.powerOfTen (Estimate.scalingPower
            (upperMidpoint rank).exponent))).cut.exponent -
          Estimate.scalingPower (upperMidpoint rank).exponent⟩ := by
  have exponent : (Binary64.doublings rank : Int) - 1075 =
      Binary64.doublings rank - 1074 - 1 := by
    omega
  simp only [short, upperMidpoint, exponent]

variable {rank}

/-- The unit of the scaled midpoints of a finite float is at most one. -/
theorem exponent_scaledUpper_nonpos
    (finite : rank < Binary64.infinityRank) :
    (scaledUpper rank (Estimate.scalingPower
      (upperMidpoint rank).exponent)).exponent ≤ 0 := by
  have exponents := exponent_upperMidpoint rank
  have few : Binary64.doublings rank ≤ 2045 := by
    rw [Binary64.infinityRank] at finite
    rw [Binary64.doublings]
    omega
  exact Estimate.exponent_scaled_nonpos (by omega) (by omega)

/-- The short decimal of a float is between its midpoints. -/
theorem roundsTo_short (positive : 0 < rank)
    (finite : rank < Binary64.infinityRank) :
    Binary64.RoundsTo (short rank).count rank := by
  have cut := toRat_cut_bounds rank _ (exponent_scaledUpper_nonpos finite)
  have tens : (0 : ℚ) <
      10 ^ Estimate.scalingPower (upperMidpoint rank).exponent :=
    zpow_pos (by norm_num) _
  rw [← toRat_sub_mul_zpow
    (Estimate.scalingPower (upperMidpoint rank).exponent), ← short_eq]
    at cut
  have above := mul_lt_mul_of_pos_right
    (lt_of_mul_lt_mul_right cut.1 tens.le) Binary64.cast_one_pos
  have below := mul_lt_mul_of_pos_right
    (lt_of_mul_lt_mul_right cut.2 tens.le) Binary64.cast_one_pos
  refine .of_lt ?_ ?_
  · exact (le_two_mul_lowerMidpoint positive).trans_lt
      (mul_lt_mul_of_pos_left above two_pos)
  · rw [← two_mul_upperMidpoint]
    exact mul_lt_mul_of_pos_left below two_pos

end

end Calculator.Decimal

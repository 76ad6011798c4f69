import Calculator.Proofs.Decimal.Trials

/-!
# The digits that are cut are the fewest within the bounds

The digits of a float are cut where what is cut off first lies within the
bounds, so no multiple of a higher power of ten is between them.  A number
with fewer digits would be such a multiple, or else the power of ten with as
many zeros would be one, which is not above the number that is cut.  So every
number between the bounds has as many digits, or more.

The bounds are less than two units inside the midpoints to the neighbouring
floats, and half a step of the float has at least five hundred and twelve
units.  A number with fewer digits that denotes the float is therefore
closer to a midpoint than the two hundred and fifty-sixth part of half a step.
The float with the least significand of the smallest spacing has a bound
further inside, but there is no number with fewer digits in its interval.
-/

namespace Calculator.Decimal

namespace ScaledBounds

/-! ## No higher power of ten -/

/-- Above the place that is found before the point, the bounds are too narrow
at each place. -/
theorem lt_mod_of_wholePlace?_eq_some {bounds : ScaledBounds}
    {digits place higher : Nat}
    (found : bounds.wholePlace? digits = some place) (above : place < higher)
    (below : higher < digits) :
    bounds.width < bounds.upper % (10 ^ higher * 2 ^ bounds.shift) := by
  induction digits with
  | zero => cases found
  | succ digits ih =>
      rw [wholePlace?] at found
      split at found
      · obtain rfl := Option.some.inj found
        omega
      · next beyond =>
          rcases Nat.lt_succ_iff_lt_or_eq.mp below with before | rfl
          · exact ih found before
          · exact Nat.not_le.mp beyond

/-- Before the place that is found after the point, the bounds are too narrow
at each place. -/
theorem le_mod_of_lt_fractionPlace (bounds : ScaledBounds)
    {trials place earlier : Nat} (start : place ≤ earlier)
    (before : earlier < bounds.fractionPlace trials place) :
    bounds.width * 10 ^ earlier ≤
      bounds.upper * 10 ^ earlier % 2 ^ bounds.shift := by
  induction trials generalizing place with
  | zero =>
      rw [fractionPlace] at before
      omega
  | succ trials ih =>
      rw [fractionPlace] at before
      split at before
      · omega
      · next beyond =>
          rcases Nat.lt_or_eq_of_le start with later | rfl
          · exact ih later before
          · exact Nat.not_lt.mp beyond

theorem le_fractionPlace (bounds : ScaledBounds) (trials place : Nat) :
    place ≤ bounds.fractionPlace trials place := by
  induction trials generalizing place with
  | zero => exact Nat.le_refl _
  | succ trials ih =>
      rw [fractionPlace]
      split
      · exact Nat.le_refl _
      · exact (Nat.le_succ place).trans (ih (place + 1))

/-- Where the bounds are too narrow for a unit, no multiple of it is between
them. -/
theorem lt_mul_of_le_mod {upper width unit multiple : Nat}
    (beyond : width ≤ upper % unit) (above : upper < multiple * unit + width) :
    upper < multiple * unit := by
  by_contra within
  have below : multiple * unit ≤ upper := Nat.not_lt.mp within
  have rest : upper % unit ≤ upper - multiple * unit := by
    rw [← Nat.sub_mul_mod (by rwa [Nat.mul_comm] at below :
      unit * multiple ≤ upper), Nat.mul_comm]
    exact Nat.mod_le _ _
  omega

/-- Where the last digit is found before the point, no multiple of the next
power of ten is between the bounds. -/
theorem lt_mul_of_wholePlace?_eq_some {bounds : ScaledBounds}
    {place multiple : Nat}
    (found : bounds.wholePlace?
      (digitsOf (bounds.upper / 2 ^ bounds.shift)).length = some place)
    (positive : 0 < multiple)
    (above : bounds.upper <
      multiple * (10 ^ (place + 1) * 2 ^ bounds.shift) + bounds.width) :
    bounds.upper < multiple * (10 ^ (place + 1) * 2 ^ bounds.shift) := by
  rcases Nat.lt_or_ge (place + 1)
      (digitsOf (bounds.upper / 2 ^ bounds.shift)).length
    with inside | beyond
  · have narrow := lt_mod_of_wholePlace?_eq_some found
      (Nat.lt_succ_self place) inside
    exact lt_mul_of_le_mod narrow.le above
  · calc bounds.upper
        < 10 ^ (digitsOf (bounds.upper / 2 ^ bounds.shift)).length *
            2 ^ bounds.shift := bounds.upper_lt_ten_pow_mul
      _ ≤ 10 ^ (place + 1) * 2 ^ bounds.shift :=
          Nat.mul_le_mul_right _ (Nat.pow_le_pow_right (by decide) beyond)
      _ ≤ multiple * (10 ^ (place + 1) * 2 ^ bounds.shift) :=
          Nat.le_mul_of_pos_left _ positive

/-- Where it is found after the point, this holds as well. -/
theorem lt_mul_of_fractionPlace_eq {bounds : ScaledBounds}
    {before multiple : Nat}
    (found : bounds.wholePlace?
      (digitsOf (bounds.upper / 2 ^ bounds.shift)).length = none)
    (last : bounds.fractionPlace bounds.shift 1 = before + 1)
    (above : bounds.upper * 10 ^ before <
      multiple * 2 ^ bounds.shift + bounds.width * 10 ^ before) :
    bounds.upper * 10 ^ before < multiple * 2 ^ bounds.shift := by
  refine lt_mul_of_le_mod ?_ above
  rcases Nat.eq_zero_or_pos before with rfl | later
  · have written : 0 < (digitsOf (bounds.upper / 2 ^ bounds.shift)).length :=
      Nat.length_toDigits_pos
    have first := lt_mod_of_wholePlace?_eq_none found written
    simpa using first.le
  · have passed : before < bounds.fractionPlace bounds.shift 1 :=
      (Nat.lt_succ_self before).trans_eq last.symm
    exact bounds.le_mod_of_lt_fractionPlace later passed

/-- No multiple of a power of ten higher than that of the last digit is
between the bounds. -/
theorem cut_no_higher (bounds : ScaledBounds) {multiple : Nat}
    (positive : 0 < multiple)
    (above : (bounds.upper - bounds.width : ℚ) <
      multiple * 10 ^ (bounds.cut.exponent + 1) * 2 ^ bounds.shift) :
    (bounds.upper : ℚ) <
      multiple * 10 ^ (bounds.cut.exponent + 1) * 2 ^ bounds.shift := by
  cases found : bounds.wholePlace?
      (digitsOf (bounds.upper / 2 ^ bounds.shift)).length with
  | some place =>
      have exponent : bounds.cut.exponent = place := by
        simp only [cut, found]
      have whole : (multiple * 10 ^ (bounds.cut.exponent + 1) *
          2 ^ bounds.shift : ℚ) =
            (multiple * (10 ^ (place + 1) * 2 ^ bounds.shift) : Nat) := by
        rw [exponent]
        push_cast
        rw [mul_assoc]
        rfl
      rw [whole] at above ⊢
      rw [sub_lt_iff_lt_add] at above
      norm_cast at above ⊢
      exact lt_mul_of_wholePlace?_eq_some found positive above
  | none =>
      obtain ⟨before, last⟩ : ∃ before,
          bounds.fractionPlace bounds.shift 1 = before + 1 :=
        ⟨_, (Nat.sub_add_cancel
          (bounds.le_fractionPlace bounds.shift 1)).symm⟩
      have exponent : bounds.cut.exponent + 1 = -(before : Int) := by
        simp only [cut, found, last]
        omega
      have tens : (0 : ℚ) < 10 ^ before := by positivity
      have fraction : (multiple * 10 ^ (bounds.cut.exponent + 1) *
          2 ^ bounds.shift : ℚ) =
            multiple * 2 ^ bounds.shift / 10 ^ before := by
        rw [exponent, zpow_neg, zpow_natCast]
        ring
      rw [fraction, lt_div_iff₀ tens, sub_mul, sub_lt_iff_lt_add] at above
      rw [fraction, lt_div_iff₀ tens]
      norm_cast at above ⊢
      exact lt_mul_of_fractionPlace_eq found last above

/-- A number between the bounds has as many digits as the one that is cut, or
more. -/
theorem coefficient_cut_lt {bounds : ScaledBounds}
    (narrow : bounds.width ≤ bounds.upper) {coefficient digits : Nat}
    (exponent : Int) (positive : 0 < coefficient)
    (few : coefficient < 10 ^ digits)
    (above : (bounds.upper - bounds.width : ℚ) <
      coefficient * 10 ^ exponent * 2 ^ bounds.shift)
    (below : (coefficient * 10 ^ exponent * 2 ^ bounds.shift : ℚ) ≤
      bounds.upper) :
    bounds.cut.coefficient < 10 ^ digits := by
  have unit : (0 : ℚ) < 2 ^ bounds.shift := by positivity
  by_contra many
  rcases Int.lt_or_le bounds.cut.exponent exponent with higher | notHigher
  · obtain ⟨places, shift⟩ : ∃ places : Nat,
        exponent = places + (bounds.cut.exponent + 1) :=
      ⟨(exponent - bounds.cut.exponent - 1).toNat, by omega⟩
    have multiple : (coefficient * 10 ^ exponent : ℚ) =
        (coefficient * 10 ^ places : Nat) *
          10 ^ (bounds.cut.exponent + 1) := by
      rw [shift, zpow_add₀ (by norm_num), zpow_natCast]
      push_cast
      ring
    rw [multiple] at above below
    exact absurd below (not_le.mpr (bounds.cut_no_higher
      (Nat.mul_pos positive (Nat.pow_pos (by decide))) above))
  · -- The power of ten with as many zeros is between the bounds as well.
    obtain ⟨fewer, rfl⟩ : ∃ fewer, digits = fewer + 1 := by
      cases digits with
      | zero => omega
      | succ fewer => exact ⟨fewer, rfl⟩
    have power : ((10 ^ fewer : Nat) * 10 ^ (bounds.cut.exponent + 1) : ℚ) =
        10 ^ (fewer + 1) * 10 ^ bounds.cut.exponent := by
      rw [zpow_add₀ (by norm_num)]
      push_cast
      ring
    have tens : (0 : ℚ) < 10 ^ bounds.cut.exponent :=
      zpow_pos (by norm_num) _
    have reached : (10 ^ (fewer + 1) * 10 ^ bounds.cut.exponent : ℚ) ≤
        bounds.cut.toRat := by
      rw [toRat]
      refine mul_le_mul_of_nonneg_right ?_ tens.le
      exact_mod_cast Nat.not_lt.mp many
    have larger : (coefficient * 10 ^ exponent : ℚ) ≤
        10 ^ (fewer + 1) * 10 ^ bounds.cut.exponent := by
      refine mul_le_mul ?_ ?_ (zpow_nonneg (by norm_num) _) (by positivity)
      · exact_mod_cast few.le
      · exact zpow_le_zpow_right₀ (by norm_num) notHigher
    have least : (bounds.upper : ℚ) <
        (10 ^ fewer : Nat) * 10 ^ (bounds.cut.exponent + 1) *
          2 ^ bounds.shift := by
      refine bounds.cut_no_higher (Nat.pow_pos (by decide)) ?_
      rw [power]
      exact above.trans_le (mul_le_mul_of_nonneg_right larger unit.le)
    rw [power] at least
    exact absurd (cut_bounds bounds narrow).2 (not_le.mpr
      (least.trans_le (mul_le_mul_of_nonneg_right reached unit.le)))

end ScaledBounds

/-! ## The bounds and the midpoints -/

section

variable (rank : Nat) (power : Int)

/-- Half a step of a float has many units after scaling. -/
theorem two_pow_nine_units_le_half :
    (2 : ℚ) ^ 9 * 2 ^ (scaledUpper rank power).exponent ≤
      2 ^ ((Binary64.doublings rank : Int) - 1074 - 1) * 10 ^ power := by
  have shifted := (exponent_upperMidpoint rank).2
  have step : (2 : ℚ) ^ ((upperMidpoint rank).exponent + 10) ≤
      2 ^ ((Binary64.doublings rank : Int) - 1074 - 1) :=
    zpow_le_zpow_right₀ one_le_two (by omega)
  exact (two_pow_nine_units_le rank power).trans
    (mul_le_mul_of_nonneg_right step (zpow_nonneg (by norm_num) _))

/-- A number outside the bounds is less than two units inside the midpoints,
if it is inside at all. -/
theorem outside_bounds_of_few
    (whole : (scaledUpper rank power).exponent ≤ 0)
    {coefficient digits : Nat} (exponent : Int) (positive : 0 < coefficient)
    (few : coefficient < 10 ^ digits)
    (many : 10 ^ digits ≤
      (ScaledBounds.ofRank rank (.powerOfTen power)).cut.coefficient) :
    (coefficient * 10 ^ exponent : ℚ) <
        (lowerMidpoint rank).toRat * 10 ^ power +
          2 * 2 ^ (scaledUpper rank power).exponent ∨
      (upperMidpoint rank).toRat * 10 ^ power -
          2 * 2 ^ (scaledUpper rank power).exponent <
        coefficient * 10 ^ exponent := by
  have apart := scaledLower_add_two_lt rank power
  have lower := (scaledLower_bounds rank power).1
  have upper := (scaledUpper_bounds rank power).2
  have unit : (0 : ℚ) < 2 ^ (scaledUpper rank power).exponent :=
    zpow_pos two_pos _
  have narrow := width_ofRank_le rank power
  have outside : ¬ (_ ∧ _) := fun inside =>
    Nat.not_lt.mpr many (ScaledBounds.coefficient_cut_lt narrow
      exponent positive few inside.1 inside.2)
  rw [ofRank_eq] at outside
  simp only at outside
  rw [Nat.cast_sub (by omega : (scaledLower rank power).significand + 1 ≤
      (scaledUpper rank power).significand - 1),
    Nat.cast_sub (by omega : 1 ≤ (scaledUpper rank power).significand)]
    at outside
  push_cast at outside
  generalize (coefficient * 10 ^ exponent : ℚ) = number at outside ⊢
  have counted : number = number *
      2 ^ (-(scaledUpper rank power).exponent).toNat *
        2 ^ (scaledUpper rank power).exponent := by
    rw [← zpow_natCast, Int.toNat_of_nonneg (by omega), mul_assoc,
      ← zpow_add₀ two_ne_zero, neg_add_cancel, zpow_zero, mul_one]
  rcases not_and_or.mp outside with notAbove | notBelow
  · left
    rw [counted]
    have most := mul_le_mul_of_nonneg_right (not_lt.mp notAbove) unit.le
    linarith
  · right
    rw [counted]
    have least := mul_lt_mul_of_pos_right (not_le.mp notBelow) unit
    linarith

end

section

variable {rank : Nat}

/-- A number with fewer digits than the short decimal is close to a midpoint,
or not between them. -/
theorem near_midpoint_of_few (finite : rank < Binary64.infinityRank)
    {coefficient digits : Nat} (exponent : Int) (positive : 0 < coefficient)
    (few : coefficient < 10 ^ digits)
    (many : 10 ^ digits ≤ (short rank).coefficient) :
    (coefficient * 10 ^ exponent : ℚ) <
        (lowerMidpoint rank).toRat +
          2 ^ ((Binary64.doublings rank : Int) - 1074 - 1) / 256 ∨
      (upperMidpoint rank).toRat -
          2 ^ ((Binary64.doublings rank : Int) - 1074 - 1) / 256 <
        coefficient * 10 ^ exponent := by
  have whole := exponent_scaledUpper_nonpos finite
  rw [short_eq, coefficient_shifted] at many
  generalize Estimate.scalingPower (upperMidpoint rank).exponent = power
    at whole many
  have units := two_pow_nine_units_le_half rank power
  have tens : (0 : ℚ) < 10 ^ power := zpow_pos (by norm_num) _
  have scaled : (coefficient * 10 ^ (exponent + power) : ℚ) =
      coefficient * 10 ^ exponent * 10 ^ power := by
    rw [zpow_add₀ (by norm_num), mul_assoc]
  have outside := outside_bounds_of_few rank power whole
    (exponent + power) positive few many
  rw [scaled] at outside
  generalize (2 : ℚ) ^ ((Binary64.doublings rank : Int) - 1074 - 1) = half
    at units ⊢
  refine outside.imp (fun below => ?_) fun above => ?_
  · refine lt_of_mul_lt_mul_right ?_ tens.le
    linarith
  · refine lt_of_mul_lt_mul_right ?_ tens.le
    linarith

end

end Calculator.Decimal

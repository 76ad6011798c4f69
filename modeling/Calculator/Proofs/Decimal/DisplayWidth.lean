import Calculator.Decimal.Display
import Calculator.Proofs.Binary64.Sign
import Calculator.Proofs.Decimal.Trials

/-!
# The width of a result

A result is shown in at most twenty-five characters.

It has at most seventeen digits.  The bounds between which the digits are cut
are narrower than ten units of the last digit, and the upper bound is hardly
more than `2 ^ 53` times their distance.  The first digit is at most 324 places
after the point, so that no result is too small to be shown, and at most 309
places before it.  So a power of ten has at most three digits, and positional
notation, which is used near the point only, adds few zeros.
-/

namespace Calculator.Decimal

/-! ## Seventeen digits -/

namespace ScaledBounds

theorem cut_mul_le (upper lowered : Nat) {width unit : Nat}
    (ten : width < 10 * unit) :
    (upper / unit - lowered) * width ≤ 10 * upper :=
  calc (upper / unit - lowered) * width
      ≤ upper / unit * (10 * unit) :=
        Nat.mul_le_mul (Nat.sub_le _ _) ten.le
    _ = 10 * (upper / unit * unit) := Nat.mul_left_comm _ _ _
    _ ≤ 10 * upper := Nat.mul_le_mul_left 10 (Nat.div_mul_le_self upper unit)

/-- The number that is cut has few digits where the bounds are wide. -/
theorem coefficient_cut_mul_width_le {bounds : ScaledBounds}
    (narrow : bounds.width ≤ bounds.upper) :
    bounds.cut.coefficient * bounds.width ≤ 10 * bounds.upper := by
  simp only [cut]
  split
  · next place found =>
      exact cut_mul_le _ _ (width_lt_of_cut_whole narrow found)
  · next missing =>
      have ten := width_lt_of_cut_fraction bounds.shift missing
      generalize bounds.fractionPlace bounds.shift 1 = place at ten ⊢
      have tens : 0 < 10 ^ place := Nat.pow_pos (by decide)
      refine Nat.le_of_mul_le_mul_right ?_ tens
      rw [Nat.mul_assoc, Nat.mul_assoc]
      exact cut_mul_le _ _ ten

end ScaledBounds

section

variable (rank : Nat)

/-- The midpoints are not close to each other for their size. -/
theorem upperMidpoint_le_mul_sub :
    (upperMidpoint rank).toRat ≤
      2 ^ 53 * ((upperMidpoint rank).toRat - (lowerMidpoint rank).toRat) := by
  have bound := Binary64.significand_lt rank
  rw [toRat_upperMidpoint, lowerMidpoint]
  split
  · next least =>
      -- The midpoint below is nearer here, by a quarter of a step.
      have quarter : (0 : ℚ) <
          2 ^ ((Binary64.doublings rank : Int) - 1074 - 2) :=
        zpow_pos two_pos _
      rw [half_step_eq, least, Estimate.toRat]
      push_cast
      linarith
  · have steps : 2 * Binary64.significand rank + 1 +
        2 ^ 53 * (2 * Binary64.significand rank - 1) ≤
          2 ^ 53 * (2 * Binary64.significand rank + 1) := by
      omega
    have counted : (2 * Binary64.significand rank + 1 +
        2 ^ 53 * (2 * Binary64.significand rank - 1 : Nat) : ℚ) ≤
          2 ^ 53 * (2 * Binary64.significand rank + 1) := by
      exact_mod_cast steps
    rw [Estimate.toRat, ← sub_mul, ← mul_assoc]
    refine mul_le_mul_of_nonneg_right ?_ (zpow_nonneg two_pos.le _)
    simp only
    linarith

/-- The same holds of the bounds.  They are closer to each other than the
scaled midpoints by at most four units, of five hundred and twelve or more. -/
theorem scaledUpper_mul_lt (power : Int) :
    (((scaledUpper rank power).significand - 1) * 127 : ℚ) <
      ((scaledUpper rank power).significand -
        (scaledLower rank power).significand - 2) * 2 ^ 60 := by
  have unit : (0 : ℚ) < 2 ^ (scaledUpper rank power).exponent :=
    zpow_pos two_pos _
  have units := lowerMidpoint_mul_add_le rank power
  have lower := (scaledLower_bounds rank power).1
  obtain ⟨upperBelow, upperAbove⟩ := scaledUpper_bounds rank power
  have size := mul_le_mul_of_nonneg_right (upperMidpoint_le_mul_sub rank)
    (zpow_nonneg (by norm_num : (0 : ℚ) ≤ 10) power)
  refine lt_of_mul_lt_mul_right ?_ unit.le
  linarith

theorem upper_ofRank_mul_lt (power : Int) :
    (ScaledBounds.ofRank rank (.powerOfTen power)).upper * 127 <
      (ScaledBounds.ofRank rank (.powerOfTen power)).width * 2 ^ 60 := by
  have size := scaledUpper_mul_lt rank power
  obtain ⟨rest, upper⟩ :=
    Nat.exists_eq_add_of_lt (scaledLower_add_two_lt rank power)
  rw [ofRank_eq]
  simp only
  rw [upper] at size ⊢
  generalize (scaledLower rank power).significand = lower at size ⊢
  have width : lower + 2 + rest + 1 - 1 - (lower + 1) = rest + 1 := by
    omega
  rw [width, Nat.add_sub_cancel]
  push_cast at size
  have counted : ((lower + 2 + rest) * 127 : ℚ) < (rest + 1) * 2 ^ 60 := by
    linarith
  exact_mod_cast counted

/-- A float is shown with at most seventeen digits. -/
theorem coefficient_short_lt : (short rank).coefficient < 10 ^ 17 := by
  rw [short_eq, coefficient_shifted]
  generalize Estimate.scalingPower (upperMidpoint rank).exponent = power
  have digits := ScaledBounds.coefficient_cut_mul_width_le
    (width_ofRank_le rank power)
  have wide := upper_ofRank_mul_lt rank power
  generalize ScaledBounds.ofRank rank (.powerOfTen power) = bounds
    at digits wide ⊢
  refine Nat.lt_of_mul_lt_mul_right (a := bounds.width) ?_
  omega

end

/-! ## The place of the first digit -/

theorem ten_pow_le_of_ne_zero {value : Nat} (nonzero : value ≠ 0) :
    10 ^ ((digitsOf value).length - 1) ≤ value := by
  by_contra less
  rcases Nat.eq_zero_or_pos ((digitsOf value).length - 1)
    with single | several
  · rw [single, Nat.pow_zero] at less
    omega
  · have shorter := (Nat.length_toDigits_le_iff (by decide) several).mpr
      (Nat.not_le.mp less)
    rw [← digitsOf] at shorter
    omega

section

variable {rank : Nat}

/-- The first digit of a nonzero float is at most 324 places after the point,
so that no float is too small for the display form. -/
theorem lt_point_short (positive : 0 < rank)
    (finite : rank < Binary64.infinityRank) :
    -324 < (short rank).exponent +
      (digitsOf (short rank).coefficient).length := by
  have rounds := roundsTo_short positive finite
  generalize short rank = number at rounds ⊢
  by_contra far
  refine Nat.ne_of_gt positive (eq_zero_of_roundsTo rounds
    (two_mul_count_lt_one_of_toRat_lt ?_))
  have digits : (number.coefficient : ℚ) <
      10 ^ (digitsOf number.coefficient).length := by
    exact_mod_cast lt_ten_pow_length_digitsOf number.coefficient
  calc number.toRat
      < 10 ^ (digitsOf number.coefficient).length *
          10 ^ number.exponent :=
        mul_lt_mul_of_pos_right digits (zpow_pos (by norm_num) _)
    _ = 10 ^ (number.exponent +
          (digitsOf number.coefficient).length) := by
        rw [← zpow_natCast, ← zpow_add₀ (by norm_num), add_comm]
    _ ≤ 10 ^ (-324 : Int) :=
        zpow_le_zpow_right₀ (by norm_num) (Int.not_lt.mp far)

/-- It is at most 309 places before the point. -/
theorem point_short_le (positive : 0 < rank)
    (finite : rank < Binary64.infinityRank) :
    (short rank).exponent + (digitsOf (short rank).coefficient).length ≤
      309 := by
  have rounds := roundsTo_short positive finite
  have most := toRat_le_of_count_le (count_le_of_roundsTo rounds finite)
  generalize short rank = number at rounds most ⊢
  have nonzero : number.coefficient ≠ 0 := by
    intro zero
    refine Nat.ne_of_gt positive (eq_zero_of_roundsTo rounds ?_)
    rw [count_eq_zero zero, mul_zero]
    exact zero_lt_one
  by_contra far
  have written : 0 < (digitsOf number.coefficient).length :=
    Nat.length_toDigits_pos
  have digits : (10 : ℚ) ^ ((digitsOf number.coefficient).length - 1) ≤
      number.coefficient := by
    exact_mod_cast ten_pow_le_of_ne_zero nonzero
  have least : (10 : ℚ) ^ 309 ≤ number.toRat :=
    calc (10 : ℚ) ^ 309 = 10 ^ (309 : Int) := (zpow_natCast 10 309).symm
      _ ≤ 10 ^ (((digitsOf number.coefficient).length - 1 : Nat) +
            number.exponent) :=
          zpow_le_zpow_right₀ (by norm_num) (by omega)
      _ = 10 ^ ((digitsOf number.coefficient).length - 1) *
            10 ^ number.exponent := by
          rw [zpow_add₀ (by norm_num), zpow_natCast]
      _ ≤ number.toRat :=
          mul_le_mul_of_nonneg_right digits (zpow_nonneg (by norm_num) _)
  have power : (2 : ℚ) ^ 1024 < 10 ^ 309 :=
    two_pow_lt_ten_pow_of_blocks 11 1 1 (by norm_num)
  exact absurd (least.trans most) (not_le.mpr power)

end

/-! ## Layouts -/

section

variable {number : Decimal}

theorem length_signText_le (negative : Bool) :
    (signText negative).length ≤ 1 := by
  cases negative <;> decide

theorem length_digitsOf_le {value places : Nat} (positive : 0 < places)
    (less : value < 10 ^ places) : (digitsOf value).length ≤ places :=
  (Nat.length_toDigits_le_iff (by decide) positive).mpr less

theorem length_positional (number : Decimal) :
    number.positional.length =
      if 0 ≤ number.exponent then
        (digitsOf number.coefficient).length + number.exponent.toNat
      else if (-number.exponent).toNat <
          (digitsOf number.coefficient).length then
        (digitsOf number.coefficient).length + 1
      else
        2 + (-number.exponent).toNat := by
  rw [positional]
  split
  · rw [List.length_append, List.length_replicate]
  · split
    · rw [List.length_append, List.length_cons, List.length_take,
        List.length_drop]
      omega
    · rw [List.length_cons, List.length_cons, List.length_append,
        List.length_replicate]
      omega

theorem length_scientific_le (number : Decimal) :
    number.scientific.length ≤
      (digitsOf number.coefficient).length + 3 +
        (digitsOf (number.exponent +
          (digitsOf number.coefficient).length - 1).natAbs).length := by
  have sign := length_signText_le
    (number.exponent + (digitsOf number.coefficient).length - 1 < 0)
  simp only [scientific]
  split
  · next first second rest written =>
      rw [written] at sign
      rw [written]
      simp only [List.length_cons, List.length_append] at sign ⊢
      omega
  · simp only [List.length_cons, List.length_append]
    omega

/-- Seventeen digits take at most twenty-four characters, whether zeros or a
power of ten stand with them. -/
theorem length_displayed_le (few : number.coefficient < 10 ^ 17)
    (above : -324 <
      number.exponent + (digitsOf number.coefficient).length)
    (below : number.exponent + (digitsOf number.coefficient).length ≤
      309) :
    number.displayed.length ≤ 24 := by
  have digits := length_digitsOf_le (by decide) few
  rw [displayed]
  split
  · rw [List.length_append, length_positional]
    split
    · simp only [List.length_cons, List.length_nil]
      omega
    · rw [List.length_nil]
      split <;> omega
  · have power := length_digitsOf_le (by decide : 0 < 3)
      (by omega : (number.exponent +
        (digitsOf number.coefficient).length - 1).natAbs < 10 ^ 3)
    have width := length_scientific_le number
    omega

end

/-- A float is shown in at most twenty-five characters. -/
theorem length_display_le (number : Float) :
    (display number).length ≤ 25 := by
  rw [display]
  split
  · decide
  · next negative found =>
      cases negative <;> decide
  · next negative rank found =>
      have sign := length_signText_le negative
      have digits : (if rank = 0 then ['0', '.', '0']
          else (short rank).displayed).length ≤ 24 := by
        split
        · decide
        · next nonzero =>
            have positive := Nat.pos_of_ne_zero nonzero
            have finite := Binary64.lt_of_ofFloat found
            exact length_displayed_le (coefficient_short_lt rank)
              (lt_point_short positive finite)
              (point_short_le positive finite)
      rw [String.length_ofList, List.length_append]
      omega

/-- The bound is reached by a sign, five zeros and seventeen digits. -/
example : (display (-1 / 700000)).length = 25 := rfl

end Calculator.Decimal

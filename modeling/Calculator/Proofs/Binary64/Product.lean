import Calculator.Proofs.Binary64.Operations

/-!
# Products are rounded to the nearest float

The product of two floats is the product of their significands, as a count of
a power of two.  It is shifted right to the spacing of the result.  Of the
bits that are shifted out the first one is kept, and whether another one was
set, so that what is lost is still compared with one half; the comparison is
all that the rounding needs.  Where the rounding carries into one more bit, a
second shift takes it to the next spacing.

So a product is the float nearest to the exact product, and infinity from
infinity's rank on.
-/

namespace Calculator

/-- A quotient is rounded the same after both of its parts are multiplied. -/
theorem roundHalfEven_mul_right (numerator denominator : Nat) {factor : Nat}
    (positive : 0 < factor) :
    roundHalfEven (numerator * factor) (denominator * factor) =
      roundHalfEven numerator denominator := by
  have less : 2 * (numerator % denominator * factor) < denominator * factor ↔
      2 * (numerator % denominator) < denominator := by
    rw [← Nat.mul_assoc, Nat.mul_lt_mul_right positive]
  have half : 2 * (numerator % denominator * factor) = denominator * factor ↔
      2 * (numerator % denominator) = denominator := by
    rw [← Nat.mul_assoc, Nat.mul_left_inj (Nat.ne_of_gt positive)]
  simp only [roundHalfEven, Nat.mul_div_mul_right _ _ positive,
    Nat.mul_mod_mul_right, less, half]

namespace Binary64

open Float.Model (Format UnpackedFloat totalExponent)
open Float.Model.UnpackedFloat (Sign ExtendedMantissa Accuracy pack
  packComponents packedInfinity packedZero roundWithAccuracy shiftToExponent
  shiftToTargetExponent)

/-! ## Shifting to the right -/

/-- A shift keeps the last bit that is shifted out, and whether a bit before
it was set. -/
theorem shiftRight_succ (mantissa bits : Nat) :
    (⟨mantissa, false, false⟩ : ExtendedMantissa) >>> (bits + 1) =
      ⟨mantissa / 2 ^ (bits + 1), mantissa / 2 ^ bits % 2 != 0,
        mantissa % 2 ^ bits != 0⟩ := by
  induction bits with
  | zero =>
      simp [HShiftRight.hShiftRight, Nat.repeat,
        ExtendedMantissa.shiftRightOne, Nat.mod_one]
  | succ bits ih =>
      change ExtendedMantissa.shiftRightOne
        ((⟨mantissa, false, false⟩ : ExtendedMantissa) >>> (bits + 1)) = _
      have rest : mantissa % 2 ^ (bits + 1) =
          mantissa % 2 ^ bits + 2 ^ bits * (mantissa / 2 ^ bits % 2) :=
        Nat.mod_mul
      have set : (mantissa / 2 ^ bits % 2 != 0 || mantissa % 2 ^ bits != 0) =
          (mantissa % 2 ^ (bits + 1) != 0) := by
        rw [rest, Bool.eq_iff_iff]
        simp [Nat.add_eq_zero_iff]
        tauto
      rw [ih, ExtendedMantissa.shiftRightOne, set, Nat.div_div_eq_div_mul,
        ← Nat.pow_succ]

/-- The kept bits decide the rounding as what is lost would. -/
theorem roundedMantissa_shiftRight (mantissa bits : Nat) :
    ((⟨mantissa, false, false⟩ : ExtendedMantissa) >>>
        bits).roundedMantissa =
      roundHalfEven mantissa (2 ^ bits) := by
  cases bits with
  | zero => exact (roundHalfEven_one mantissa).symm
  | succ bits =>
      have rest : mantissa % 2 ^ (bits + 1) =
          mantissa % 2 ^ bits + 2 ^ bits * (mantissa / 2 ^ bits % 2) :=
        Nat.mod_mul
      have lost := Nat.mod_lt mantissa (Nat.two_pow_pos bits)
      rw [shiftRight_succ]
      simp only [roundHalfEven, rest]
      rw [Nat.pow_succ']
      generalize mantissa / (2 * 2 ^ bits) = quotient
      generalize mantissa % 2 ^ bits = lower at lost ⊢
      rcases Nat.mod_two_eq_zero_or_one (mantissa / 2 ^ bits)
        with clear | set
      · rw [clear, if_pos (by omega)]
        cases lower <;> rfl
      · rw [set, Nat.mul_one]
        cases lower with
        | zero =>
            rcases Nat.mod_two_eq_zero_or_one quotient with even | odd
            · rw [if_pos (by omega)]
              change quotient + quotient % 2 = quotient
              omega
            · rw [if_neg (by omega)]
              change quotient + quotient % 2 = quotient + 1
              omega
        | succ lower =>
            rw [if_neg (by omega)]
            rfl

/-! ## Packing a rounded mantissa -/

/-- The sign bit of a number whose sign is known. -/
def signBit (sign : Sign) : Nat :=
  sign.toBitVec.toNat * 2 ^ 63

theorem toNat_packedZero (sign : Sign) :
    (packedZero Format.binary64 sign).toNat = signBit sign + 0 := by
  cases sign <;> rfl

theorem toNat_packedInfinity (sign : Sign) :
    (packedInfinity Format.binary64 sign).toNat =
      signBit sign + infinityRank := by
  cases sign <;> rfl

/-- A mantissa of the spacing is packed as its rank, or as infinity. -/
theorem toNat_pack_finite (sign : Sign) {steps spacing : Nat}
    (positive : 0 < steps) (full : spacing = 0 ∨ 2 ^ 52 ≤ steps)
    (bound : steps < 2 ^ 53) :
    (pack Format.binary64
        (.finite sign steps ((spacing : Int) - 1074) positive)).toNat =
      signBit sign + min infinityRank (spacing * 2 ^ 52 + steps) := by
  have biased : ((spacing : Int) - 1074 + 1075).toNat = spacing + 1 := by
    omega
  rw [pack_finite sign positive biased]
  simp only [infinityRank]
  split
  · next large =>
      rw [toNat_packedInfinity, infinityRank, Nat.min_eq_left (by omega)]
  · next small =>
      rw [Nat.min_eq_right (by omega), signBit]
      split
      · next normal =>
          have least := Nat.log2_self_le (Nat.ne_of_gt positive)
          rw [Nat.succ.inj normal] at least
          rw [toNat_packComponents, BitVec.toNat_ofNat, BitVec.toNat_ofNat]
          change (_ * 2 ^ 11 + (spacing + 1) % 2 ^ 11) * 2 ^ 52 +
            steps % 2 ^ 52 = _
          omega
      · next subnormal =>
          have few : steps < 2 ^ 52 := by
            rw [← Nat.log2_lt (Nat.ne_of_gt positive)]
            have most := (Nat.log2_lt (Nat.ne_of_gt positive)).mpr bound
            omega
          rw [toNat_packComponents, BitVec.toNat_ofNat, BitVec.toNat_ofNat]
          change (_ * 2 ^ 11 + 0 % 2 ^ 11) * 2 ^ 52 + steps % 2 ^ 52 = _
          omega

theorem toNat_pack_scaled (sign : Sign) {steps spacing : Nat}
    (full : spacing = 0 ∨ 2 ^ 52 ≤ steps) (bound : steps < 2 ^ 53) :
    (pack Format.binary64
        (scaled sign
          (⟨steps, false, false⟩, (spacing : Int) - 1074))).toNat =
      signBit sign + min infinityRank (spacing * 2 ^ 52 + steps) := by
  by_cases nothing : steps = 0
  · subst nothing
    obtain rfl : spacing = 0 := by omega
    exact toNat_packedZero sign
  · rw [scaled, dif_neg nothing, toNat_pack_finite sign _ full bound]

/-! ## Rounding a mantissa -/

/-- The spacing, in doublings of the smallest one, around a count of
`2 ^ -2148` that is a mantissa with doublings of its own. -/
def spacingAround (mantissa doubled : Nat) : Nat :=
  mantissa.log2 + doubled - 1126

/-- The bits that the mantissa loses in that spacing. -/
def bitsLost (mantissa doubled : Nat) : Nat :=
  spacingAround mantissa doubled + 1074 - doubled

/-- The exponent that a mantissa is shifted to is that of the spacing. -/
theorem targetExponent_eq (mantissa doubled : Nat) :
    Format.binary64.targetExponent
        (totalExponent mantissa ((doubled : Int) - 2148)) =
      (spacingAround mantissa doubled : Int) - 1074 := by
  have mantissaBits : (Format.binary64.mantissaBits : Int) = 53 := rfl
  have minExponent : Format.binary64.minExponent = -1074 := rfl
  rw [Format.targetExponent, totalExponent, mantissaBits, minExponent]
  unfold spacingAround
  generalize mantissa.log2 = bits
  omega

/-- A mantissa with all its bits, or without doublings beyond the smallest
spacing, is not shifted to the left. -/
theorem bitsLost_add_doubled {mantissa doubled : Nat}
    (regular : 52 ≤ mantissa.log2 ∨ doubled ≤ 1074) :
    bitsLost mantissa doubled + doubled =
      spacingAround mantissa doubled + 1074 := by
  unfold bitsLost spacingAround
  generalize mantissa.log2 = bits at regular
  exact Nat.sub_add_cancel (by omega)

/-- What is left of a mantissa has at most the bits of a significand, and has
them all in a spacing that is not the smallest. -/
theorem bitsLost_eq_or_le {mantissa doubled : Nat}
    (regular : 52 ≤ mantissa.log2 ∨ doubled ≤ 1074) :
    52 + bitsLost mantissa doubled = mantissa.log2 ∨
      spacingAround mantissa doubled = 0 ∧
        mantissa.log2 ≤ 52 + bitsLost mantissa doubled := by
  have whole := bitsLost_add_doubled regular
  unfold spacingAround at whole ⊢
  generalize mantissa.log2 = bits at *
  generalize bitsLost mantissa doubled = lost at *
  omega

theorem shiftToTargetExponent_eq {mantissa doubled : Nat}
    (regular : 52 ≤ mantissa.log2 ∨ doubled ≤ 1074) :
    shiftToTargetExponent Format.binary64 mantissa ((doubled : Int) - 2148)
        .exact =
      ((⟨mantissa, false, false⟩ : ExtendedMantissa) >>>
          bitsLost mantissa doubled,
        (spacingAround mantissa doubled : Int) - 1074) := by
  have whole := bitsLost_add_doubled regular
  have bits :
      ((spacingAround mantissa doubled : Int) - 1074 -
          ((doubled : Int) - 2148)).toNat =
        bitsLost mantissa doubled := by
    omega
  have exponent :
      (doubled : Int) - 2148 + (bitsLost mantissa doubled : Int) =
        (spacingAround mantissa doubled : Int) - 1074 := by
    omega
  rw [shiftToTargetExponent, targetExponent_eq, shiftToExponent, bits,
    exponent]
  rfl

/-- The second shift does nothing, or makes up for a carry. -/
theorem shiftToTargetExponent_rounded {steps spacing : Nat}
    (full : spacing = 0 ∨ 2 ^ 52 ≤ steps) (bound : steps ≤ 2 ^ 53) :
    shiftToTargetExponent Format.binary64 steps ((spacing : Int) - 1074)
        .exact =
      if steps < 2 ^ 53 then
        (⟨steps, false, false⟩, (spacing : Int) - 1074)
      else
        (⟨2 ^ 52, false, false⟩, ((spacing + 1 : Nat) : Int) - 1074) := by
  have exponent : (spacing : Int) - 1074 =
      ((spacing + 1074 : Nat) : Int) - 2148 := by
    omega
  have regular : spacing = 0 ∨ 52 ≤ steps.log2 := by
    refine full.imp_right fun least => ?_
    exact (Nat.le_log2 (by omega)).mpr least
  have again : 52 ≤ steps.log2 ∨ spacing + 1074 ≤ 1074 := by omega
  have whole := bitsLost_add_doubled again
  rw [exponent, shiftToTargetExponent_eq again]
  split
  · next inside =>
      have few : steps.log2 ≤ 52 := by
        rcases Nat.eq_zero_or_pos steps with rfl | positive
        · decide
        · exact Nat.le_of_lt_succ ((Nat.log2_lt positive.ne').mpr inside)
      have unchanged : spacingAround steps (spacing + 1074) = spacing := by
        unfold spacingAround
        generalize steps.log2 = bits at *
        omega
      have nothing : bitsLost steps (spacing + 1074) = 0 := by omega
      rw [unchanged, nothing, ← exponent]
      rfl
  · next carried =>
      obtain carry : steps = 2 ^ 53 := by omega
      have next : spacingAround steps (spacing + 1074) = spacing + 1 := by
        unfold spacingAround
        rw [carry, Nat.log2_two_pow]
        omega
      have once : bitsLost steps (spacing + 1074) = 1 := by omega
      rw [next, once, carry]
      rfl

/-- A rounded mantissa is packed as the rank that it counts up to. -/
theorem toNat_pack_scaled_rounded (sign : Sign) {steps spacing : Nat}
    (full : spacing = 0 ∨ 2 ^ 52 ≤ steps) (bound : steps ≤ 2 ^ 53) :
    (pack Format.binary64
        (scaled sign
          (shiftToTargetExponent Format.binary64 steps
            ((spacing : Int) - 1074) .exact))).toNat =
      signBit sign + min infinityRank (spacing * 2 ^ 52 + steps) := by
  rw [shiftToTargetExponent_rounded full bound]
  split
  · next inside => exact toNat_pack_scaled sign full inside
  · next carried =>
      have next : (spacing + 1) * 2 ^ 52 + 2 ^ 52 =
          spacing * 2 ^ 52 + steps := by
        omega
      rw [toNat_pack_scaled sign (.inr le_rfl) (by decide), next]

/-- A mantissa is rounded to a step of the spacing of the result. -/
theorem toNat_pack_roundWithAccuracy (sign : Sign) {mantissa doubled : Nat}
    (positive : 0 < mantissa)
    (regular : 52 ≤ mantissa.log2 ∨ doubled ≤ 1074) :
    (pack Format.binary64
        (roundWithAccuracy Format.binary64 sign mantissa
          ((doubled : Int) - 2148) .exact)).toNat =
      signBit sign +
        min infinityRank
          (spacingAround mantissa doubled * 2 ^ 52 +
            roundHalfEven mantissa (2 ^ bitsLost mantissa doubled)) := by
  have most := Nat.lt_log2_self (n := mantissa)
  have least := Nat.log2_self_le (Nat.ne_of_gt positive)
  have bits := bitsLost_eq_or_le regular
  rw [roundWithAccuracy_eq_scaled, shiftToTargetExponent_eq regular,
    roundedMantissa_shiftRight]
  have upper : mantissa / 2 ^ bitsLost mantissa doubled < 2 ^ 53 := by
    rw [Nat.div_lt_iff_lt_mul (Nat.two_pow_pos _), ← Nat.pow_add]
    exact most.trans_le (Nat.pow_le_pow_right two_pos (by omega))
  have lower : spacingAround mantissa doubled = 0 ∨
      2 ^ 52 ≤ mantissa / 2 ^ bitsLost mantissa doubled := by
    refine bits.symm.imp And.left fun whole => ?_
    rw [Nat.le_div_iff_mul_le (Nat.two_pow_pos _), ← Nat.pow_add, whole]
    exact least
  have rounded :=
    roundHalfEven_eq_or mantissa (2 ^ bitsLost mantissa doubled)
  exact toNat_pack_scaled_rounded sign (by omega) (by omega)

/-- The nearest float counts the same steps of the same spacing. -/
theorem nearestRank_mul_two_pow {mantissa doubled : Nat}
    (positive : 0 < mantissa)
    (regular : 52 ≤ mantissa.log2 ∨ doubled ≤ 1074) :
    nearestRank (mantissa * 2 ^ doubled) one =
      min infinityRank
        (spacingAround mantissa doubled * 2 ^ 52 +
          roundHalfEven mantissa (2 ^ bitsLost mantissa doubled)) := by
  have most := Nat.mul_lt_mul_of_pos_right
    (Nat.lt_log2_self (n := mantissa)) (Nat.two_pow_pos doubled)
  have least := Nat.mul_le_mul_right (2 ^ doubled)
    (Nat.log2_self_le (Nat.ne_of_gt positive))
  have bits := bitsLost_eq_or_le regular
  have whole := bitsLost_add_doubled regular
  rw [← Nat.pow_add] at most least
  have spaced : (mantissa * 2 ^ doubled / one).log2 - 52 =
      spacingAround mantissa doubled := by
    refine log2_sub_eq (bits.symm.imp And.left fun left => ?_) ?_
    · rw [one, Nat.le_div_iff_mul_le (Nat.two_pow_pos 1074),
        ← Nat.pow_add 2 _ 1074]
      exact (Nat.pow_le_pow_right two_pos (by omega)).trans least
    · rw [one, Nat.div_lt_iff_lt_mul (Nat.two_pow_pos 1074),
        ← Nat.pow_add 2 _ 1074]
      exact most.trans_le (Nat.pow_le_pow_right two_pos (by omega))
  have step : one * 2 ^ spacingAround mantissa doubled =
      2 ^ bitsLost mantissa doubled * 2 ^ doubled := by
    rw [← Nat.pow_add, whole, Nat.add_comm, Nat.pow_add]
    rfl
  rw [nearestRank, spaced, step,
    roundHalfEven_mul_right _ _ (Nat.two_pow_pos doubled)]

/-! ## Products -/

section

variable {number other : Float} {negative otherNegative : Bool}
  {rank otherRank : Nat}

theorem toNat_toBits_mul (number other : Float) :
    (number * other).toBits.toNat =
      (pack Format.binary64
        ((unpacked number).mul Format.binary64 (unpacked other))).toNat :=
  rfl

theorem mul_finite (sign otherSign : Sign) {mantissa otherMantissa : Nat}
    (exponent otherExponent : Int) (positive : 0 < mantissa)
    (otherPositive : 0 < otherMantissa) :
    UnpackedFloat.mul Format.binary64
        (.finite sign mantissa exponent positive)
        (.finite otherSign otherMantissa otherExponent otherPositive) =
      roundWithAccuracy Format.binary64 (sign * otherSign)
        (mantissa * otherMantissa) (exponent + otherExponent) .exact :=
  rfl

theorem signBit_signOf_mul (negative otherNegative : Bool) (rank : Nat) :
    signBit (signOf negative * signOf otherNegative) + rank =
      if (negative ^^ otherNegative) = true then 2 ^ 63 + rank else rank := by
  cases negative <;> cases otherNegative
  · exact Nat.zero_add rank
  · rfl
  · rfl
  · exact Nat.zero_add rank

/-- The product of two magnitudes, by their significands. -/
theorem magnitude_mul (rank otherRank : Nat) :
    magnitude rank * magnitude otherRank =
      significand rank * significand otherRank *
        2 ^ (doublings rank + doublings otherRank) := by
  rw [magnitude, magnitude, Nat.pow_add, Nat.mul_mul_mul_comm]

/-- A product of significands has all its bits, or the spacings of both factors
are the smallest. -/
theorem log2_significand_mul {rank otherRank : Nat}
    (positive : 0 < significand rank)
    (otherPositive : 0 < significand otherRank) :
    52 ≤ (significand rank * significand otherRank).log2 ∨
      doublings rank + doublings otherRank = 0 := by
  have product := Nat.mul_pos positive otherPositive
  rw [Nat.le_log2 product.ne']
  rcases doublings_eq_zero_or rank with smallest | full
  · rcases doublings_eq_zero_or otherRank with otherSmallest | full
    · exact .inr (by rw [smallest, otherSmallest])
    · exact .inl (full.trans (Nat.le_mul_of_pos_left _ positive))
  · exact .inl (full.trans (Nat.le_mul_of_pos_right _ otherPositive))

theorem nearestRank_zero (denominator : Nat) :
    nearestRank 0 denominator = 0 := by
  have rounded : roundHalfEven 0 denominator = 0 := by
    rw [roundHalfEven, Nat.zero_div, Nat.zero_mod, if_pos (by omega)]
  simp [nearestRank, rounded]

/-- A product of finite numbers is the float nearest to the exact product. -/
theorem mul_eq_nearest (found : ofFloat number = .finite negative rank)
    (otherFound : ofFloat other = .finite otherNegative otherRank) :
    number * other =
      nearest (negative ^^ otherNegative)
        (magnitude rank * magnitude otherRank) one := by
  apply float_eq_of_toBits_eq
  apply UInt64.toNat_inj.mp
  rw [nearest, toNat_toBits_signed _ (nearestRank_le _ _), toNat_toBits_mul,
    ← signBit_signOf_mul]
  rcases Nat.eq_zero_or_pos rank with rfl | positive
  · rw [magnitude_zero, Nat.zero_mul, nearestRank_zero,
      unpacked_of_rank_zero found]
    rcases Nat.eq_zero_or_pos otherRank with rfl | otherPositive
    · rw [unpacked_of_rank_zero otherFound]
      exact toNat_packedZero _
    · obtain ⟨_, same⟩ := unpacked_of_rank_pos otherFound otherPositive
      rw [same]
      exact toNat_packedZero _
  · obtain ⟨significant, same⟩ := unpacked_of_rank_pos found positive
    rcases Nat.eq_zero_or_pos otherRank with rfl | otherPositive
    · rw [magnitude_zero, Nat.mul_zero, nearestRank_zero, same,
        unpacked_of_rank_zero otherFound]
      exact toNat_packedZero _
    · obtain ⟨otherSignificant, otherSame⟩ :=
        unpacked_of_rank_pos otherFound otherPositive
      have product := Nat.mul_pos significant otherSignificant
      have regular : 52 ≤ (significand rank * significand otherRank).log2 ∨
          doublings rank + doublings otherRank ≤ 1074 := by
        refine (log2_significand_mul significant otherSignificant).imp_right ?_
        omega
      have exponent : (doublings rank : Int) - 1074 +
            ((doublings otherRank : Int) - 1074) =
          ((doublings rank + doublings otherRank : Nat) : Int) - 2148 := by
        omega
      rw [same, otherSame, mul_finite, exponent,
        toNat_pack_roundWithAccuracy _ product regular, magnitude_mul,
        nearestRank_mul_two_pow product regular]

end

/-! ## Rounding is monotone -/

section

variable {count otherCount : ℚ} {rank otherRank : Nat}

/-- A larger number is not rounded to a smaller magnitude. -/
theorem RoundsTo.rank_le (rounds : RoundsTo count rank)
    (otherRounds : RoundsTo otherCount otherRank) (le : count ≤ otherCount) :
    rank ≤ otherRank := by
  by_contra more
  have less : otherRank < rank := Nat.not_le.mp more
  have next := cast_magnitude_le less
  have before := cast_magnitude_le (Nat.le_sub_one_of_lt less)
  have lower := rounds.above
  have upper := otherRounds.below
  -- Both numbers are the midpoint between the magnitudes, which are
  -- neighbours; but only one of two neighbours is even.
  have midpoint :
      (magnitude otherRank + magnitude (otherRank + 1) : ℚ) = 2 * count := by
    linarith
  have neighbour : rank = otherRank + 1 := by
    by_contra other
    have further := cast_magnitude_lt (by omega : otherRank + 1 < rank)
    linarith
  have even := rounds.ties (.inl (by
    rw [neighbour, Nat.add_sub_cancel]
    exact midpoint))
  have otherEven := otherRounds.ties (.inr (by linarith))
  omega

theorem nearestRank_le_nearestRank {numerator otherNumerator denominator : Nat}
    (positive : 0 < denominator) (le : numerator ≤ otherNumerator) :
    nearestRank numerator denominator ≤
      nearestRank otherNumerator denominator := by
  have denominatorPos : (0 : ℚ) < denominator := Nat.cast_pos.mpr positive
  obtain ⟨rank, rounds⟩ := exists_roundsTo
    (div_nonneg (Nat.cast_nonneg (α := ℚ) numerator) denominatorPos.le)
  obtain ⟨otherRank, otherRounds⟩ := exists_roundsTo
    (div_nonneg (Nat.cast_nonneg (α := ℚ) otherNumerator) denominatorPos.le)
  rw [nearestRank_eq_min positive rounds,
    nearestRank_eq_min positive otherRounds]
  refine min_le_min_left infinityRank (rounds.rank_le otherRounds ?_)
  exact div_le_div_of_nonneg_right (Nat.cast_le.mpr le) denominatorPos.le

end

/-! ## Rounding changes little -/

/-- A magnitude that has all its bits is close to the next one. -/
theorem magnitude_succ_mul_le {rank : Nat} (full : 2 ^ 52 ≤ rank) :
    magnitude (rank + 1) * 1024 ≤ magnitude rank * 1025 := by
  have significant : 2 ^ 52 ≤ significand rank := by
    rw [significand, if_neg (Nat.not_lt.mpr full)]
    exact Nat.le_add_right _ _
  rw [magnitude_succ, magnitude, Nat.mul_right_comm,
    Nat.mul_right_comm _ _ 1025]
  exact Nat.mul_le_mul_right _ (by omega)

/-- More than the quotient of a number and the magnitude that it rounds to, if
that one has all its bits. -/
def roundingFactor : ℚ := 1025 / 1024

theorem one_le_roundingFactor : 1 ≤ roundingFactor := by
  norm_num [roundingFactor]

theorem RoundsTo.le_mul_roundingFactor {count : ℚ} {rank : Nat}
    (rounds : RoundsTo count rank) (full : 2 ^ 52 < rank) :
    count ≤ roundingFactor * magnitude rank ∧
      magnitude rank ≤ roundingFactor * count := by
  have after : (magnitude (rank + 1) * 1024 : ℚ) ≤ magnitude rank * 1025 :=
    mod_cast magnitude_succ_mul_le full.le
  have before : (magnitude rank * 1024 : ℚ) ≤ magnitude (rank - 1) * 1025 := by
    have previous := magnitude_succ_mul_le (Nat.le_sub_one_of_lt full)
    rw [Nat.sub_add_cancel (by omega)] at previous
    exact_mod_cast previous
  rw [roundingFactor]
  constructor
  · linarith [rounds.below]
  · linarith [rounds.above]

/-! ## Whole numbers -/

/-- A whole number that has the bits of a significand is a magnitude. -/
theorem exists_magnitude_eq_mul_one {number : Nat} (small : number < 2 ^ 53) :
    ∃ rank < infinityRank, magnitude rank = number * one := by
  obtain ⟨rank, exactly⟩ : ∃ rank, magnitude rank = number * one :=
    exists_magnitude_eq small 1074
  have large : number < 2 ^ 1024 :=
    small.trans_le (Nat.pow_le_pow_right Nat.two_pos (by decide))
  refine ⟨rank, ?_, exactly⟩
  rw [← magnitude_strictMono.lt_iff_lt, exactly, magnitude_infinityRank]
  exact Nat.mul_lt_mul_of_pos_right large (Nat.cast_pos.mp cast_one_pos)

/-- A whole number that has the bits of a significand is a float. -/
theorem ofFloat_ofNat {number : Nat} (small : number < 2 ^ 53) :
    ∃ rank, ofFloat (ofNat number) = .finite false rank ∧
      magnitude rank = number * one := by
  obtain ⟨rank, finite, exactly⟩ := exists_magnitude_eq_mul_one small
  have rounds : RoundsTo ((number * one : Nat) / (1 : Nat)) rank := by
    rw [Nat.cast_one, div_one, ← exactly]
    exact roundsTo_magnitude rank
  refine ⟨rank, ?_, exactly⟩
  rw [ofNat, nearest, nearestRank_eq_of_roundsTo Nat.one_pos rounds finite]
  exact ofFloat_signed_of_lt false finite

end Binary64

end Calculator

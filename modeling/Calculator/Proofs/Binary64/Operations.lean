import Calculator.Proofs.Binary64.Value

/-!
# Operations that have a result

An operation on floats has no result only where mathematics has none: for a
difference or a quotient of infinities, a quotient of zeros, the root of a
negative number.  Finite operands have a result, which may be infinite,
except for a quotient by zero and for such a root.
-/

namespace Calculator.Binary64

open Float.Model (Format UnpackedFloat)
open Float.Model.UnpackedFloat (Sign ExtendedMantissa Accuracy pack unpack
  packComponents packedInfinity packedNaN unpackExponent roundWithAccuracy
  shiftToTargetExponent)

variable {number other : Float}

/-! ## Packing keeps what a number is -/

theorem isNaN_unpack_packedInfinity (sign : Sign) :
    (unpack Format.binary64 (packedInfinity Format.binary64 sign)).isNaN =
      false := by
  cases sign <;> rfl

/-- A bit pattern whose exponent is not full is one of a number. -/
theorem isNaN_unpack_packComponents (sign : Sign) {exponent : BitVec 11}
    (notFull : exponent ≠ -1#11) (mantissa : BitVec 52) :
    (unpack Format.binary64
      (packComponents Format.binary64 sign exponent mantissa)).isNaN =
        false := by
  rw [← Bool.not_eq_true, isNaN_unpack_iff,
    Float.Model.UnpackedFloat.unpackExponent_packComponents]
  exact fun both => notFull both.1

/-- Only what is no number is packed as none. -/
theorem isNaN_unpack_pack (result : UnpackedFloat) :
    (unpack Format.binary64 (pack Format.binary64 result)).isNaN =
      result.isNaN := by
  cases result with
  | notANumber => rfl
  | infinity sign => exact isNaN_unpack_packedInfinity sign
  | zero sign => cases sign <;> rfl
  | finite sign mantissa exponent positive =>
      rw [pack_finite sign positive rfl]
      change _ = false
      split
      · exact isNaN_unpack_packedInfinity sign
      · next small =>
          split
          · refine isNaN_unpack_packComponents sign ?_ _
            intro full
            have biased := congrArg BitVec.toNat full
            have ones : (-1#11 : BitVec 11).toNat = 2047 := rfl
            rw [BitVec.toNat_ofNat, ones] at biased
            omega
          · exact isNaN_unpack_packComponents sign (by decide) _

/-! ## Rounding has a result -/

/-- A shifted mantissa with its exponent, as a number with a sign. -/
def scaled (sign : Sign) (shifted : ExtendedMantissa × Int) :
    UnpackedFloat :=
  if zero : shifted.1.mantissa = 0 then
    .zero sign
  else
    .finite sign shifted.1.mantissa shifted.2 (Nat.pos_of_ne_zero zero)

/-- A mantissa is shifted to the spacing of the result, rounded, and shifted
once more. -/
theorem roundWithAccuracy_eq_scaled (sign : Sign) (mantissa : Nat)
    (exponent : Int) (accuracy : Accuracy) :
    roundWithAccuracy Format.binary64 sign mantissa exponent accuracy =
      scaled sign
        (shiftToTargetExponent Format.binary64
          (shiftToTargetExponent Format.binary64 mantissa exponent
            accuracy).1.roundedMantissa
          (shiftToTargetExponent Format.binary64 mantissa exponent
            accuracy).2
          .exact) :=
  rfl

theorem isNaN_scaled (sign : Sign) (shifted : ExtendedMantissa × Int) :
    (scaled sign shifted).isNaN = false := by
  by_cases zero : shifted.1.mantissa = 0
  · rw [scaled, dif_pos zero]
    rfl
  · rw [scaled, dif_neg zero]
    rfl

theorem isNaN_roundWithAccuracy (sign : Sign) (mantissa : Nat)
    (exponent : Int) (accuracy : Accuracy) :
    (roundWithAccuracy Format.binary64 sign mantissa exponent
      accuracy).isNaN = false := by
  rw [roundWithAccuracy_eq_scaled, isNaN_scaled]

theorem isNaN_normalize (mantissa exponent : Int) (zeroSign : Sign) :
    (UnpackedFloat.normalize Format.binary64 mantissa exponent
      zeroSign).isNaN = false := by
  unfold UnpackedFloat.normalize
  split
  · exact isNaN_roundWithAccuracy _ _ _ _
  · rfl
  · exact isNaN_roundWithAccuracy _ _ _ _

section

variable {first second : UnpackedFloat}

theorem zero_or_finite (finite : first.isFinite = true) :
    (∃ sign, first = .zero sign) ∨
      ∃ sign mantissa exponent positive,
        first = .finite sign mantissa exponent positive := by
  cases first with
  | notANumber => cases finite
  | infinity => cases finite
  | zero sign => exact .inl ⟨sign, rfl⟩
  | finite sign mantissa exponent positive =>
      exact .inr ⟨sign, mantissa, exponent, positive, rfl⟩

theorem isNaN_add_unpacked (finite : first.isFinite = true)
    (otherFinite : second.isFinite = true) :
    (first.add Format.binary64 second).isNaN = false := by
  obtain ⟨sign, rfl⟩ | ⟨_, _, _, _, rfl⟩ := zero_or_finite finite
  · obtain ⟨otherSign, rfl⟩ | ⟨_, _, _, _, rfl⟩ :=
      zero_or_finite otherFinite
    · cases sign <;> cases otherSign <;> rfl
    · rfl
  · obtain ⟨otherSign, rfl⟩ | ⟨_, _, _, _, rfl⟩ :=
      zero_or_finite otherFinite
    · rfl
    · exact isNaN_normalize _ _ _

theorem isNaN_sub_unpacked (finite : first.isFinite = true)
    (otherFinite : second.isFinite = true) :
    (first.sub Format.binary64 second).isNaN = false := by
  obtain ⟨sign, rfl⟩ | ⟨_, _, _, _, rfl⟩ := zero_or_finite finite
  · obtain ⟨otherSign, rfl⟩ | ⟨_, _, _, _, rfl⟩ :=
      zero_or_finite otherFinite
    · cases sign <;> cases otherSign <;> rfl
    · rfl
  · obtain ⟨otherSign, rfl⟩ | ⟨_, _, _, _, rfl⟩ :=
      zero_or_finite otherFinite
    · rfl
    · exact isNaN_normalize _ _ _

theorem isNaN_mul_unpacked (finite : first.isFinite = true)
    (otherFinite : second.isFinite = true) :
    (first.mul Format.binary64 second).isNaN = false := by
  obtain ⟨sign, rfl⟩ | ⟨_, _, _, _, rfl⟩ := zero_or_finite finite
  · obtain ⟨otherSign, rfl⟩ | ⟨_, _, _, _, rfl⟩ :=
      zero_or_finite otherFinite
    · rfl
    · rfl
  · obtain ⟨otherSign, rfl⟩ | ⟨_, _, _, _, rfl⟩ :=
      zero_or_finite otherFinite
    · rfl
    · exact isNaN_roundWithAccuracy _ _ _ _

/-- A quotient has a result unless it is one of zeros or of infinities. -/
theorem isNaN_div_unpacked (isNumber : first.isNaN = false)
    (otherIsNumber : second.isNaN = false)
    (nonzero : ∀ sign, second ≠ .zero sign)
    (finite : first.isFinite = true ∨ second.isFinite = true) :
    (first.div Format.binary64 second).isNaN = false := by
  cases second with
  | notANumber => cases otherIsNumber
  | zero sign => exact absurd rfl (nonzero sign)
  | infinity =>
      obtain ⟨sign, rfl⟩ | ⟨_, _, _, _, rfl⟩ :=
        zero_or_finite (finite.resolve_right nofun)
      · rfl
      · rfl
  | finite =>
      cases first with
      | notANumber => cases isNumber
      | infinity => rfl
      | zero => rfl
      | finite => exact isNaN_roundWithAccuracy _ _ _ _

end

/-! ## Floats that are numbers -/

theorem unpacked_zero : unpacked 0 = .zero .positive :=
  unpacked_of_rank_zero ofFloat_zero

theorem isFinite_unpacked (finite : number.isFinite = true) :
    (unpacked number).isFinite = true := finite

theorem isNaN_of_isFinite (finite : number.isFinite = true) :
    number.isNaN = false := by
  obtain ⟨sign, zero⟩ | ⟨_, _, _, _, here⟩ :=
    zero_or_finite (isFinite_unpacked finite)
  · exact congrArg UnpackedFloat.isNaN zero
  · exact congrArg UnpackedFloat.isNaN here

/-- A number that is not finite is infinite. -/
theorem isFinite_of_not_isInf (isNumber : number.isNaN = false)
    (notInfinite : number.isInf = false) : number.isFinite = true := by
  have isNumber : (unpacked number).isNaN = false := isNumber
  have notInfinite : (unpacked number).isInf = false := notInfinite
  change (unpacked number).isFinite = true
  cases found : unpacked number with
  | notANumber =>
      rw [found] at isNumber
      cases isNumber
  | infinity => simp [found, UnpackedFloat.isInf] at notInfinite
  | zero => rfl
  | finite => rfl

theorem isNaN_signed (negative : Bool) {rank : Nat}
    (isNumber : rank ≤ infinityRank) :
    (signed negative rank).isNaN = false := by
  rw [← Bool.not_eq_true, isNaN_iff]
  rcases Nat.lt_or_eq_of_le isNumber with finite | rfl
  · rw [ofFloat_signed_of_lt negative finite]
    exact nofun
  · rw [ofFloat_signed_infinityRank]
    exact nofun

/-- What is rounded has a result. -/
theorem isNaN_nearest (negative : Bool) (numerator denominator : Nat) :
    (nearest negative numerator denominator).isNaN = false :=
  isNaN_signed negative (nearestRank_le _ _)

section

variable (finite : number.isFinite = true)

include finite

theorem isFinite_neg : (-number).isFinite = true := by
  obtain ⟨negative, rank, found⟩ := isFinite_iff.mp finite
  exact isFinite_iff.mpr ⟨_, _, ofFloat_neg found⟩

theorem isFinite_abs : number.abs.isFinite = true := by
  obtain ⟨negative, rank, found⟩ := isFinite_iff.mp finite
  exact isFinite_iff.mpr ⟨_, _, ofFloat_abs found⟩

theorem isNaN_mapMagnitude (change : Bool → Nat → Nat) :
    (mapMagnitude change number).isNaN = false := by
  obtain ⟨negative, rank, found⟩ := isFinite_iff.mp finite
  rw [mapMagnitude, found]
  exact isNaN_nearest _ _ _

theorem isNaN_add (otherFinite : other.isFinite = true) :
    (number + other).isNaN = false :=
  (isNaN_unpack_pack _).trans (isNaN_add_unpacked finite otherFinite)

theorem isNaN_sub (otherFinite : other.isFinite = true) :
    (number - other).isNaN = false :=
  (isNaN_unpack_pack _).trans (isNaN_sub_unpacked finite otherFinite)

theorem isNaN_mul (otherFinite : other.isFinite = true) :
    (number * other).isNaN = false :=
  (isNaN_unpack_pack _).trans (isNaN_mul_unpacked finite otherFinite)

theorem isNaN_remainder (otherFinite : other.isFinite = true) :
    (remainder number other).isNaN = false := by
  obtain ⟨negative, rank, found⟩ := isFinite_iff.mp finite
  obtain ⟨otherNegative, otherRank, otherFound⟩ :=
    isFinite_iff.mp otherFinite
  rw [remainder, found, otherFound]
  exact isNaN_nearest _ _ _

/-- A positive number has a root. -/
theorem isNaN_sqrt (positive : ¬ number ≤ 0) :
    number.sqrt.isNaN = false := by
  refine (isNaN_unpack_pack _).trans ?_
  change ((unpacked number).sqrt Format.binary64).isNaN = false
  rw [le_iff_compare, unpacked_zero] at positive
  obtain ⟨sign, here⟩ | ⟨sign, _, _, _, here⟩ :=
    zero_or_finite (isFinite_unpacked finite)
  · rw [here]
    rfl
  · rw [here] at positive ⊢
    cases sign with
    | positive => exact isNaN_roundWithAccuracy _ _ _ _
    | negative => exact absurd rfl positive

end

/-- A quotient by a number other than zero has a result, unless both numbers
are infinite. -/
theorem isNaN_div (isNumber : number.isNaN = false)
    (otherIsNumber : other.isNaN = false)
    (nonzero : ¬ (other == 0) = true)
    (finite : number.isFinite = true ∨ other.isFinite = true) :
    (number / other).isNaN = false := by
  refine (isNaN_unpack_pack _).trans
    (isNaN_div_unpacked isNumber otherIsNumber ?_ finite)
  intro sign zero
  have zero : unpacked other = .zero sign := zero
  apply nonzero
  rw [beq_iff_compare, unpacked_zero, zero]
  rfl

theorem isNaN_one_div (isNumber : number.isNaN = false)
    (nonzero : ¬ (number == 0) = true) : (1 / number).isNaN = false :=
  isNaN_div (isNaN_of_isFinite isFinite_one) isNumber nonzero
    (.inl isFinite_one)

/-! ## The float that is no number -/

section

variable (missing : number.isNaN = true)

include missing

/-- There is one float that is no number. -/
theorem eq_of_isNaN (otherMissing : other.isNaN = true) : number = other := by
  have bits : ∀ {float : Float}, float.isNaN = true →
      float.toBits.toBitVec = packedNaN Format.binary64 := by
    intro float isMissing
    obtain ⟨exponent, mantissa⟩ :=
      (isNaN_unpack_iff float.toBits.toBitVec).mp isMissing
    exact float.toModel.valid.eq_packedNaN exponent mantissa
  exact float_eq_of_toBits_eq
    (UInt64.toBitVec_inj.mp ((bits missing).trans (bits otherMissing).symm))

theorem unpacked_of_isNaN : unpacked number = .notANumber := by
  have missing : (unpacked number).isNaN = true := missing
  cases here : unpacked number with
  | notANumber => rfl
  | infinity | zero | finite =>
      rw [here] at missing
      cases missing

/-- What is no number is not less than another float. -/
theorem not_lt_of_isNaN : ¬ number < other := by
  rw [lt_iff_compare, unpacked_of_isNaN missing]
  exact nofun

theorem neg_of_isNaN : -number = number := by
  refine eq_of_isNaN ((isNaN_unpack_pack _).trans ?_) missing
  change (unpacked number).neg.isNaN = true
  rw [unpacked_of_isNaN missing]
  rfl

theorem abs_of_isNaN : number.abs = number := by
  refine eq_of_isNaN ((isNaN_unpack_pack _).trans ?_) missing
  change (unpacked number).abs.isNaN = true
  rw [unpacked_of_isNaN missing]
  rfl

end

/-! ## Signs of opposite numbers -/

theorem eq_of_ofFloat_infinite {negative : Bool}
    (found : ofFloat number = .infinite negative) :
    number = if negative then -1 / 0 else 1 / 0 := by
  cases negative with
  | false =>
      exact eq_of_ofFloat_eq (found.trans (by decide)) (by simp [found])
  | true =>
      exact eq_of_ofFloat_eq (found.trans (by decide)) (by simp [found])

theorem abs_neg_eq_abs (number : Float) : (-number).abs = number.abs := by
  cases found : ofFloat number with
  | notANumber => rw [neg_of_isNaN (isNaN_iff.mpr found)]
  | infinite negative =>
      rw [eq_of_ofFloat_infinite found]
      cases negative <;> decide
  | finite negative rank =>
      have opposite := ofFloat_abs (ofFloat_neg found)
      exact eq_of_ofFloat_eq (opposite.trans (ofFloat_abs found).symm)
        (by simp [opposite])

theorem not_neg_lt_zero (negative : number < 0) : ¬ -number < 0 := by
  cases found : ofFloat number with
  | notANumber => exact absurd negative (not_lt_of_isNaN (isNaN_iff.mpr found))
  | infinite sign =>
      rw [eq_of_ofFloat_infinite found]
      cases sign with
      | false =>
          rw [eq_of_ofFloat_infinite found] at negative
          exact absurd negative (by decide)
      | true => decide
  | finite sign rank =>
      have finite := isFinite_iff.mpr ⟨_, _, found⟩
      rw [lt_iff_toRat_lt finite isFinite_zero, toRat_zero] at negative
      rw [lt_iff_toRat_lt (isFinite_neg finite) isFinite_zero, toRat_zero,
        toRat_neg found, not_lt]
      exact (neg_pos.mpr negative).le

/-- A number that is not negative is zero, or its opposite is negative. -/
theorem neg_lt_zero_or_abs_eq_zero (isNumber : number.isNaN = false)
    (nonneg : ¬ number < 0) : -number < 0 ∨ number.abs = 0 := by
  cases found : ofFloat number with
  | notANumber =>
      rw [isNaN_iff.mpr found] at isNumber
      cases isNumber
  | infinite sign =>
      left
      rw [eq_of_ofFloat_infinite found] at nonneg ⊢
      cases sign with
      | false => decide
      | true => exact absurd (by decide) nonneg
  | finite sign rank =>
      have finite := isFinite_iff.mpr ⟨_, _, found⟩
      rw [lt_iff_toRat_lt finite isFinite_zero, toRat_zero, not_lt] at nonneg
      rcases nonneg.lt_or_eq with positive | zero
      · left
        rw [lt_iff_toRat_lt (isFinite_neg finite) isFinite_zero, toRat_zero,
          toRat_neg found]
        exact neg_neg_of_pos positive
      · right
        have size := abs_toRat_of_ofFloat found
        rw [← zero, abs_zero, eq_comm, div_eq_zero_iff,
          or_iff_left cast_one_pos.ne', Nat.cast_eq_zero,
          ← magnitude_zero] at size
        obtain rfl := magnitude_strictMono.injective size
        refine eq_of_ofFloat_eq ((ofFloat_abs found).trans ofFloat_zero.symm) ?_
        simp [ofFloat_abs found]

end Calculator.Binary64

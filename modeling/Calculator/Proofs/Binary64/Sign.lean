import Calculator.Proofs.Binary64.Bits

/-!
# Floats by sign and rank

A float that is no infinity and no missing number is put together again from
its sign and its rank.  Changing its sign changes the sign bit alone, so the
rank of the magnitude stays.
-/

namespace Calculator.Binary64

open Float.Model (Format)
open Float.Model.UnpackedFloat

variable {number : Float} {negative : Bool} {rank : Nat}

/-! ## Floats and bit patterns -/

/-- A float is determined by its bit pattern. -/
theorem float_eq_of_toBits_eq {first second : Float}
    (same : first.toBits = second.toBits) : first = second := by
  obtain ⟨⟨firstBits, firstValid⟩⟩ := first
  obtain ⟨⟨secondBits, secondValid⟩⟩ := second
  obtain rfl : firstBits = secondBits := same
  rfl

/-- What a float is taken apart into, by its bit pattern. -/
theorem ofFloat_eq (number : Float) :
    ofFloat number =
      if number.toBits.toNat % 2 ^ 63 < infinityRank then
        .finite (2 ^ 63 ≤ number.toBits.toNat)
          (number.toBits.toNat % 2 ^ 63)
      else if number.toBits.toNat % 2 ^ 63 = infinityRank then
        .infinite (2 ^ 63 ≤ number.toBits.toNat)
      else
        .notANumber :=
  rfl

/-- The sign and the rank of a finite number, in its bit pattern. -/
theorem ofFloat_eq_finite_iff :
    ofFloat number = .finite negative rank ↔
      rank < infinityRank ∧
        number.toBits.toNat = if negative then 2 ^ 63 + rank else rank := by
  have size := number.toBits.toNat_lt
  rw [ofFloat_eq]
  constructor
  · intro found
    split at found
    · next finite =>
        obtain ⟨rfl, rfl⟩ := Binary64.finite.inj found
        refine ⟨finite, ?_⟩
        simp only [decide_eq_true_eq]
        split <;> omega
    · split at found <;> cases found
  · rintro ⟨finite, bits⟩
    have bound := finite
    simp only [infinityRank] at bound
    have rankRead : number.toBits.toNat % 2 ^ 63 = rank := by
      rw [bits]
      split <;> omega
    rw [rankRead, if_pos finite, bits]
    cases negative with
    | false =>
        simp
        omega
    | true => simp

theorem lt_of_ofFloat (found : ofFloat number = .finite negative rank) :
    rank < infinityRank :=
  (ofFloat_eq_finite_iff.mp found).1

/-- Floats that are numbers are told apart. -/
theorem eq_of_ofFloat_eq {first second : Float}
    (same : ofFloat first = ofFloat second)
    (isNumber : ofFloat first ≠ .notANumber) : first = second := by
  have firstSize := first.toBits.toNat_lt
  have secondSize := second.toBits.toNat_lt
  apply float_eq_of_toBits_eq
  apply UInt64.toNat_inj.mp
  rw [ofFloat_eq] at isNumber
  rw [ofFloat_eq, ofFloat_eq] at same
  split at same
  · split at same
    · obtain ⟨sign, rank⟩ := Binary64.finite.inj same
      rw [decide_eq_decide] at sign
      omega
    · split at same <;> cases same
  · split at same
    · split at same
      · cases same
      · split at same
        · have sign := Binary64.infinite.inj same
          rw [decide_eq_decide] at sign
          omega
        · cases same
    · next notFinite notInfinite =>
        rw [if_neg notFinite, if_neg notInfinite] at isNumber
        exact absurd rfl isNumber

/-- A finite number is put together from its sign and its rank. -/
theorem eq_signed_of_ofFloat
    (found : ofFloat number = .finite negative rank) :
    number = signed negative rank := by
  refine eq_of_ofFloat_eq ?_ (by simp [found])
  rw [found, ofFloat_signed_of_lt negative (lt_of_ofFloat found)]

/-! ## Finite numbers -/

/-- All bits of the exponent are set from the rank of infinity on. -/
theorem unpackExponent_eq_iff (bits : BitVec Format.binary64.numBits) :
    unpackExponent bits = -1#_ ↔ infinityRank ≤ bits.toNat % 2 ^ 63 := by
  have ones :
      (-1#_ : BitVec Format.binary64.exponentBits).toNat = 2047 := rfl
  rw [← BitVec.toNat_inj, toNat_unpackExponent, ones, infinityRank]
  omega

theorem isFinite_unpack_iff (bits : BitVec Format.binary64.numBits) :
    (unpack Format.binary64 bits).isFinite = true ↔
      unpackExponent bits ≠ -1#_ := by
  rw [unpack_eq]
  rcases ofComponents_cases (unpackExponent bits) (unpackMantissa bits)
    with ⟨full, ⟨-, shape⟩ | ⟨-, shape⟩⟩ |
      ⟨notFull, shape | ⟨_, _, _, shape⟩⟩
  · rw [shape]
    exact iff_of_false Bool.false_ne_true fun other => other full
  · rw [shape]
    exact iff_of_false Bool.false_ne_true fun other => other full
  · rw [shape]
    exact iff_of_true rfl notFull
  · rw [shape]
    exact iff_of_true rfl notFull

theorem isNaN_unpack_iff (bits : BitVec Format.binary64.numBits) :
    (unpack Format.binary64 bits).isNaN = true ↔
      unpackExponent bits = -1#_ ∧ unpackMantissa bits ≠ 0#_ := by
  rw [unpack_eq]
  rcases ofComponents_cases (unpackExponent bits) (unpackMantissa bits)
    with ⟨full, ⟨empty, shape⟩ | ⟨something, shape⟩⟩ |
      ⟨notFull, shape | ⟨_, _, _, shape⟩⟩
  · rw [shape]
    exact iff_of_false Bool.false_ne_true fun both => both.2 empty
  · rw [shape]
    exact iff_of_true rfl ⟨full, something⟩
  · rw [shape]
    exact iff_of_false Bool.false_ne_true fun both => notFull both.1
  · rw [shape]
    exact iff_of_false Bool.false_ne_true fun both => notFull both.1

/-- A float is finite exactly when it is taken apart into a sign and a
rank. -/
theorem isFinite_iff :
    number.isFinite = true ↔
      ∃ negative rank, ofFloat number = .finite negative rank := by
  have size : number.toBits.toBitVec.toNat = number.toBits.toNat := rfl
  have finite : number.isFinite = true ↔
      number.toBits.toNat % 2 ^ 63 < infinityRank := by
    rw [← Nat.not_le, ← size, ← unpackExponent_eq_iff]
    exact isFinite_unpack_iff _
  rw [finite, ofFloat_eq]
  split
  · next below => exact iff_of_true below ⟨_, _, rfl⟩
  · next above =>
      split
      · exact iff_of_false above (by simp)
      · exact iff_of_false above (by simp)

theorem isNaN_iff :
    number.isNaN = true ↔ ofFloat number = .notANumber := by
  have size : number.toBits.toBitVec.toNat = number.toBits.toNat := rfl
  have missing : number.isNaN = true ↔
      infinityRank < number.toBits.toNat % 2 ^ 63 := by
    refine (isNaN_unpack_iff number.toBits.toBitVec).trans ?_
    rw [unpackExponent_eq_iff, ne_eq, ← BitVec.toNat_inj,
      toNat_unpackMantissa, size]
    simp only [infinityRank]
    change _ ∧ ¬ _ = 0 ↔ _
    omega
  rw [missing, ofFloat_eq]
  split
  · next below => exact iff_of_false (by omega) (by simp)
  · next above =>
      split
      · next here => exact iff_of_false (by omega) (by simp)
      · next beyond => exact iff_of_true (by omega) rfl

/-! ## The sign bit -/

theorem ofBitVec_unpackSign_packComponents (sign : Sign)
    (exponent : BitVec 11) (mantissa : BitVec 52) :
    Sign.ofBitVec
        (unpackSign
          (packComponents Format.binary64 sign exponent mantissa)) =
      sign := by
  have same :
      unpackSign (packComponents Format.binary64 sign exponent mantissa) =
        sign.toBitVec := by
    have exponentBound := exponent.isLt
    have mantissaBound := mantissa.isLt
    have signBound := sign.toBitVec.isLt
    apply BitVec.eq_of_toNat_eq
    rw [toNat_unpackSign, toNat_packComponents]
    omega
  rw [same]
  cases sign <;> rfl

/-- A number with another sign. -/
def withSign (sign : Sign) :
    Float.Model.UnpackedFloat → Float.Model.UnpackedFloat
  | .notANumber => .notANumber
  | .infinity _ => .infinity sign
  | .zero _ => .zero sign
  | .finite _ mantissa exponent positive =>
      .finite sign mantissa exponent positive

theorem abs_eq_withSign (unpacked : Float.Model.UnpackedFloat) :
    unpacked.abs = withSign .positive unpacked := by
  cases unpacked <;> rfl

theorem withSign_ofComponents (sign other : Sign) (exponent : BitVec 11)
    (mantissa : BitVec 52) :
    withSign sign (ofComponents other exponent mantissa) =
      ofComponents sign exponent mantissa := by
  rcases ofComponents_cases exponent mantissa
    with ⟨-, ⟨-, shape⟩ | ⟨-, shape⟩⟩ | ⟨-, shape | ⟨_, _, _, shape⟩⟩
  · rw [shape, shape]
    rfl
  · rw [shape, shape]
    rfl
  · rw [shape, shape]
    rfl
  · rw [shape, shape]
    rfl

theorem neg_unpack (bits : BitVec Format.binary64.numBits) :
    (unpack Format.binary64 bits).neg =
      withSign (-Sign.ofBitVec (unpackSign bits))
        (unpack Format.binary64 bits) := by
  rw [unpack_eq, withSign_ofComponents]
  rcases ofComponents_cases (unpackExponent bits) (unpackMantissa bits)
    with ⟨-, ⟨-, shape⟩ | ⟨-, shape⟩⟩ | ⟨-, shape | ⟨_, _, _, shape⟩⟩
  · rw [shape, shape]
    rfl
  · rw [shape, shape]
    rfl
  · rw [shape, shape]
    rfl
  · rw [shape, shape]
    rfl

/-- A bit pattern with another sign bit is unpacked to the number with the
other sign. -/
theorem unpack_packComponents (sign : Sign)
    (bits : BitVec Format.binary64.numBits) :
    unpack Format.binary64
        (packComponents Format.binary64 sign (unpackExponent bits)
          (unpackMantissa bits)) =
      withSign sign (unpack Format.binary64 bits) := by
  rw [unpack_eq, unpack_eq, unpackExponent_packComponents,
    unpackMantissa_packComponents, ofBitVec_unpackSign_packComponents,
    withSign_ofComponents]

section

variable (found : ofFloat number = .finite negative rank)

include found

/-- The exponent and the mantissa of a finite number hold its rank. -/
theorem rank_eq_components :
    rank =
      (@unpackExponent Format.binary64
            number.toBits.toBitVec).toNat * 2 ^ 52 +
        (@unpackMantissa Format.binary64
          number.toBits.toBitVec).toNat := by
  obtain ⟨finite, bits⟩ := ofFloat_eq_finite_iff.mp found
  have size : number.toBits.toBitVec.toNat = number.toBits.toNat := rfl
  rw [toNat_unpackExponent, toNat_unpackMantissa, size, bits]
  simp only [infinityRank] at finite
  split <;> omega

/-- Another sign bit does not change the rank. -/
theorem toNat_pack_withSign (sign : Sign) :
    (pack Format.binary64
        (withSign sign
          (unpack Format.binary64 number.toBits.toBitVec))).toNat =
      sign.toBitVec.toNat * 2 ^ 63 + rank := by
  have components := rank_eq_components found
  have finite := lt_of_ofFloat found
  simp only [infinityRank] at finite
  rw [← unpack_packComponents, pack_unpack, toNat_packComponents]
  · omega
  · rw [unpackExponent_packComponents]
    intro full
    have ones :
        (-1#_ : BitVec Format.binary64.exponentBits).toNat = 2047 := rfl
    rw [full, ones] at components
    omega

/-- The magnitude of a finite number. -/
theorem ofFloat_abs : ofFloat number.abs = .finite false rank := by
  refine ofFloat_eq_finite_iff.mpr ⟨lt_of_ofFloat found, ?_⟩
  have bits := toNat_pack_withSign found .positive
  rw [← abs_eq_withSign] at bits
  exact bits.trans (by simp [Sign.toBitVec])

/-- The sign bit of a finite number. -/
theorem unpackSign_of_ofFloat :
    @unpackSign Format.binary64 number.toBits.toBitVec =
      if negative then 1#1 else 0#1 := by
  obtain ⟨finite, whole⟩ := ofFloat_eq_finite_iff.mp found
  have size : number.toBits.toBitVec.toNat = number.toBits.toNat := rfl
  simp only [infinityRank] at finite
  apply BitVec.eq_of_toNat_eq
  rw [toNat_unpackSign, size, whole]
  cases negative with
  | false => simp; omega
  | true => simp; omega

/-- The number with the opposite sign. -/
theorem ofFloat_neg : ofFloat (-number) = .finite (!negative) rank := by
  refine ofFloat_eq_finite_iff.mpr ⟨lt_of_ofFloat found, ?_⟩
  have bits := toNat_pack_withSign found
    (-Sign.ofBitVec (@unpackSign Format.binary64 number.toBits.toBitVec))
  rw [← neg_unpack, unpackSign_of_ofFloat found] at bits
  refine Eq.trans bits ?_
  cases negative with
  | false => rfl
  | true => exact Nat.zero_add rank

end

/-- A number with a clear sign bit is its own magnitude. -/
theorem abs_of_ofFloat (found : ofFloat number = .finite false rank) :
    number.abs = number := by
  have same : ofFloat number.abs = ofFloat number := by
    rw [ofFloat_abs found, found]
  exact eq_of_ofFloat_eq same (by simp [ofFloat_abs found])

/-- A number with a set sign bit is the opposite of its magnitude. -/
theorem neg_abs_of_ofFloat (found : ofFloat number = .finite true rank) :
    -number.abs = number := by
  have opposite := ofFloat_neg (ofFloat_abs found)
  have same : ofFloat (-number.abs) = ofFloat number := by
    rw [opposite, found]
    rfl
  exact eq_of_ofFloat_eq same (by simp [opposite])

end Calculator.Binary64

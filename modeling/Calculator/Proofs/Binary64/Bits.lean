import Calculator.Binary64.Basic
import Mathlib.Algebra.Group.Nat.Defs

/-!
# Bit patterns of floats

A float is put together from a sign and a rank by its bit pattern.  The only
bit patterns that a float does not keep are those of the numbers that are
none, which all become one.  So the sign and the rank of a finite magnitude,
and of infinity, can be read back from the float.
-/

namespace Calculator.Binary64

open Float.Model (Format)
open Float.Model.UnpackedFloat

/-! ## The components of a bit pattern -/

/-- The components as digits of the bit pattern. -/
theorem toNat_packComponents (sign : Sign) (exponent : BitVec 11)
    (mantissa : BitVec 52) :
    (packComponents Format.binary64 sign exponent mantissa).toNat =
      (sign.toBitVec.toNat * 2 ^ 11 + exponent.toNat) * 2 ^ 52 +
        mantissa.toNat := by
  have join : ∀ {width lowWidth : Nat} (high : BitVec width)
      (low : BitVec lowWidth),
      (high ++ low).toNat = high.toNat * 2 ^ lowWidth + low.toNat := by
    intro width lowWidth high low
    rw [BitVec.toNat_append, ← Nat.shiftLeft_add_eq_or_of_lt low.isLt,
      Nat.shiftLeft_eq]
  rw [← join, ← join]
  rfl

theorem toNat_unpackSign (bits : BitVec Format.binary64.numBits) :
    (unpackSign bits).toNat = bits.toNat / 2 ^ 63 % 2 := by
  simp [unpackSign.eq_def, BitVec.extractLsb, Nat.shiftRight_eq_div_pow]

theorem toNat_unpackExponent (bits : BitVec Format.binary64.numBits) :
    (unpackExponent bits).toNat = bits.toNat / 2 ^ 52 % 2 ^ 11 := by
  simp [unpackExponent, BitVec.extractLsb, Nat.shiftRight_eq_div_pow]

theorem toNat_unpackMantissa (bits : BitVec Format.binary64.numBits) :
    (unpackMantissa bits).toNat = bits.toNat % 2 ^ 52 := by
  simp [unpackMantissa, BitVec.extractLsb]

/-- A bit pattern consists of its sign, its exponent and its mantissa. -/
theorem packComponents_unpack (bits : BitVec Format.binary64.numBits) :
    packComponents Format.binary64 (Sign.ofBitVec (unpackSign bits))
        (unpackExponent bits) (unpackMantissa bits) =
      bits := by
  have signBits : ∀ sign : BitVec 1,
      (Sign.ofBitVec sign).toBitVec = sign := by
    decide
  have size : bits.toNat < 2 ^ 64 := bits.isLt
  apply BitVec.eq_of_toNat_eq
  rw [toNat_packComponents, signBits, toNat_unpackSign,
    toNat_unpackExponent, toNat_unpackMantissa]
  omega

/-- The implicit bit stands above the mantissa. -/
theorem toNat_implicitBit_append (mantissa : BitVec 52) :
    (1#1 ++ mantissa).toNat = 2 ^ 52 + mantissa.toNat := by
  have added := Nat.two_pow_add_eq_or_of_lt mantissa.isLt 1
  rw [BitVec.toNat_append, Nat.shiftLeft_eq]
  simpa [Nat.mul_comm] using added.symm

theorem implicitBit_append_pos (mantissa : BitVec 52) :
    0 < (1#1 ++ mantissa).toNat := by
  rw [toNat_implicitBit_append]
  omega

theorem mantissa_pos {mantissa : BitVec 52} (something : mantissa ≠ 0#52) :
    0 < mantissa.toNat := by
  rwa [BitVec.toNat_pos, BitVec.pos_iff_ne_zero]

/-! ## Packing and unpacking -/

/-- A finite number is packed by its exponent above the least one and by
whether its mantissa has the implicit bit. -/
theorem pack_finite (sign : Sign) {mantissa biased : Nat} {exponent : Int}
    (positive : 0 < mantissa) (bias : (exponent + 1075).toNat = biased) :
    pack Format.binary64 (.finite sign mantissa exponent positive) =
      if 2048 ≤ biased + 1 then
        packedInfinity Format.binary64 sign
      else if mantissa.log2 + 1 = 53 then
        packComponents Format.binary64 sign (BitVec.ofNat 11 biased)
          (BitVec.ofNat 52 mantissa)
      else
        packComponents Format.binary64 sign 0#11
          (BitVec.ofNat 52 mantissa) := by
  have total : exponent + Format.binary64.exponentBias +
      Format.binary64.mantissaBitsWithoutImplicit = exponent + 1075 :=
    Int.add_assoc exponent 1023 52
  rw [← bias, ← total]
  rfl

/-- The number with the given components. -/
def ofComponents (sign : Sign) (exponent : BitVec 11)
    (mantissa : BitVec 52) : Float.Model.UnpackedFloat :=
  if exponent = -1#11 then
    if mantissa = 0#52 then .infinity sign else .notANumber
  else if exponent = 0#11 then
    if empty : mantissa = 0#52 then
      .zero sign
    else
      .finite sign mantissa.toNat ((exponent.toNat : Int) - 1075 + 1)
        (mantissa_pos empty)
  else
    .finite sign (1#1 ++ mantissa).toNat ((exponent.toNat : Int) - 1075)
      (implicitBit_append_pos mantissa)

/-- A bit pattern is unpacked to the number with its components. -/
theorem unpack_eq (bits : BitVec Format.binary64.numBits) :
    unpack Format.binary64 bits =
      ofComponents (Sign.ofBitVec (unpackSign bits)) (unpackExponent bits)
        (unpackMantissa bits) :=
  rfl

section

variable (sign : Sign) {exponent : BitVec 11} {mantissa : BitVec 52}

theorem ofComponents_missing (something : mantissa ≠ 0#52) :
    ofComponents sign (-1#11) mantissa = .notANumber :=
  if_neg something

theorem ofComponents_subnormal (something : mantissa ≠ 0#52) :
    ofComponents sign 0#11 mantissa =
      .finite sign mantissa.toNat (-1074) (mantissa_pos something) :=
  dif_neg something

theorem ofComponents_normal (mantissa : BitVec 52)
    (notFull : exponent ≠ -1#11) (notZero : exponent ≠ 0#11) :
    ofComponents sign exponent mantissa =
      .finite sign (1#1 ++ mantissa).toNat ((exponent.toNat : Int) - 1075)
        (implicitBit_append_pos mantissa) :=
  (if_neg notFull).trans (if_neg notZero)

/-- The exponent and the mantissa tell the kind of a number, and the sign is
kept apart from them. -/
theorem ofComponents_cases (exponent : BitVec 11) (mantissa : BitVec 52) :
    (exponent = -1#11 ∧
        ((mantissa = 0#52 ∧
            ∀ sign, ofComponents sign exponent mantissa = .infinity sign) ∨
          (mantissa ≠ 0#52 ∧
            ∀ sign, ofComponents sign exponent mantissa = .notANumber))) ∨
      (exponent ≠ -1#11 ∧
        ((∀ sign, ofComponents sign exponent mantissa = .zero sign) ∨
          ∃ steps power positive, ∀ sign,
            ofComponents sign exponent mantissa =
              .finite sign steps power positive)) := by
  by_cases full : exponent = -1#11
  · subst full
    refine .inl ⟨rfl, ?_⟩
    by_cases empty : mantissa = 0#52
    · subst empty
      exact .inl ⟨rfl, fun _ => rfl⟩
    · exact .inr ⟨empty, fun sign => ofComponents_missing sign empty⟩
  · refine .inr ⟨full, ?_⟩
    by_cases zero : exponent = 0#11
    · subst zero
      by_cases empty : mantissa = 0#52
      · subst empty
        exact .inl fun _ => rfl
      · exact .inr ⟨_, _, _, fun sign => ofComponents_subnormal sign empty⟩
    · exact .inr
        ⟨_, _, _, fun sign => ofComponents_normal sign mantissa full zero⟩

/-- A mantissa without the implicit bit is packed without an exponent. -/
theorem pack_subnormal (positive : 0 < mantissa.toNat) :
    pack Format.binary64 (.finite sign mantissa.toNat (-1074) positive) =
      packComponents Format.binary64 sign 0#11 mantissa := by
  have small : mantissa.toNat.log2 < 52 :=
    (Nat.log2_lt (Nat.ne_of_gt positive)).mpr mantissa.isLt
  rw [pack_finite sign positive rfl, if_neg (by decide),
    if_neg (by omega), BitVec.ofNat_toNat, BitVec.setWidth_eq]

/-- A mantissa with the implicit bit is packed without it. -/
theorem pack_normal (finite : exponent.toNat < 2047)
    (positive : 0 < (1#1 ++ mantissa).toNat) :
    pack Format.binary64
        (.finite sign (1#1 ++ mantissa).toNat
          ((exponent.toNat : Int) - 1075) positive) =
      packComponents Format.binary64 sign exponent mantissa := by
  have bound := mantissa.isLt
  have value := toNat_implicitBit_append mantissa
  have normal : (1#1 ++ mantissa).toNat.log2 = 52 := by
    rw [Nat.log2_eq_iff (Nat.ne_of_gt positive)]
    omega
  have mantissaKept :
      BitVec.ofNat 52 (1#1 ++ mantissa).toNat = mantissa := by
    apply BitVec.eq_of_toNat_eq
    rw [BitVec.toNat_ofNat, value]
    omega
  rw [pack_finite sign positive (by omega : _ = exponent.toNat),
    if_neg (by omega), if_pos (by omega), mantissaKept, BitVec.ofNat_toNat,
    BitVec.setWidth_eq]

/-- Every number is packed into the components that it was unpacked from. -/
theorem pack_ofComponents
    (number : exponent = -1#11 → mantissa = 0#52) :
    pack Format.binary64 (ofComponents sign exponent mantissa) =
      packComponents Format.binary64 sign exponent mantissa := by
  by_cases full : exponent = -1#11
  · rw [full, number full]
    rfl
  by_cases zero : exponent = 0#11
  · subst zero
    by_cases empty : mantissa = 0#52
    · rw [empty]
      rfl
    · rw [ofComponents_subnormal sign empty, pack_subnormal]
  · have finite : exponent.toNat < 2047 := by
      have bound := exponent.isLt
      have other : exponent.toNat ≠ 2047 :=
        fun same => full (BitVec.eq_of_toNat_eq same)
      omega
    rw [ofComponents_normal sign mantissa full zero, pack_normal sign finite]

end

/-- Unpacking and packing keeps every bit pattern of a number. -/
theorem pack_unpack {bits : BitVec Format.binary64.numBits}
    (number :
      unpackExponent bits = -1#_ → unpackMantissa bits = 0#_) :
    pack Format.binary64 (unpack Format.binary64 bits) = bits := by
  rw [unpack_eq, pack_ofComponents _ number, packComponents_unpack]

/-! ## Floats and their bit patterns -/

/-- A float keeps the bit pattern of a finite magnitude and of infinity. -/
theorem toBits_ofBits {bits : UInt64}
    (number : bits.toNat % 2 ^ 63 ≤ infinityRank) :
    (Float.ofBits bits).toBits = bits := by
  have kept :
      pack Format.binary64 (unpack Format.binary64 bits.toBitVec) =
        bits.toBitVec := by
    apply pack_unpack
    intro full
    have exponent := toNat_unpackExponent bits.toBitVec
    have mantissa := toNat_unpackMantissa bits.toBitVec
    rw [full] at exponent
    have size : bits.toBitVec.toNat = bits.toNat := rfl
    have ones :
        (-1#_ : BitVec Format.binary64.exponentBits).toNat = 2047 := rfl
    rw [ones, size] at exponent
    rw [size] at mantissa
    apply BitVec.eq_of_toNat_eq
    rw [mantissa]
    simp only [infinityRank] at number
    change bits.toNat % 2 ^ 52 = 0
    omega
  exact UInt64.toBitVec_inj.mp kept

/-- The bit pattern of a float with a sign and a rank. -/
theorem toNat_toBits_signed (negative : Bool) {rank : Nat}
    (number : rank ≤ infinityRank) :
    (signed negative rank).toBits.toNat =
      if negative then 2 ^ 63 + rank else rank := by
  simp only [infinityRank] at number
  have size :
      (if negative then 2 ^ 63 + rank else rank) < 2 ^ 64 := by
    split <;> omega
  have bits :
      (UInt64.ofNat (if negative then 2 ^ 63 + rank else rank)).toNat =
        if negative then 2 ^ 63 + rank else rank :=
    UInt64.toNat_ofNat_of_lt size
  rw [signed, toBits_ofBits, bits]
  rw [bits, infinityRank]
  split <;> omega

/-- The sign and the rank of a finite magnitude are read back. -/
theorem ofFloat_signed_of_lt (negative : Bool) {rank : Nat}
    (finite : rank < infinityRank) :
    ofFloat (signed negative rank) = .finite negative rank := by
  have bits := toNat_toBits_signed negative (Nat.le_of_lt finite)
  have bound := finite
  simp only [infinityRank] at bound
  have rankRead :
      (signed negative rank).toBits.toNat % 2 ^ 63 = rank := by
    rw [bits]
    split <;> omega
  have signRead :
      decide (2 ^ 63 ≤ (signed negative rank).toBits.toNat) =
        negative := by
    rw [bits]
    cases negative with
    | false =>
        simp
        omega
    | true => simp
  rw [ofFloat, rankRead, signRead]
  exact if_pos finite

/-- Infinity is read back, with its sign. -/
theorem ofFloat_signed_infinityRank (negative : Bool) :
    ofFloat (signed negative infinityRank) = .infinite negative := by
  cases negative <;> decide +kernel

end Calculator.Binary64

import Calculator.Binary64.Integral
import Calculator.Proofs.Binary64.Nearest
import Mathlib.Order.Monotone.Odd

/-!
# Floats are compared by their values

The comparisons of finite floats are comparisons of their exact values.  A
float is compared by its exponent and then by its mantissa, which is the
order of the ranks; and magnitudes increase with their rank.
-/

namespace Calculator.Binary64

open Float.Model (Format)
open Float.Model.UnpackedFloat

variable {number other : Float} {negative otherNegative : Bool}
  {rank otherRank : Nat}

/-! ## Floats by sign, mantissa and exponent -/

/-- A float by its sign, mantissa and exponent. -/
def unpacked (number : Float) : Float.Model.UnpackedFloat :=
  unpack Format.binary64 number.toBits.toBitVec

/-- The sign of a number whose sign bit is known. -/
def signOf (negative : Bool) : Sign :=
  if negative then .negative else .positive

theorem signOf_eq (found : ofFloat number = .finite negative rank) :
    Sign.ofBitVec
        (@unpackSign Format.binary64 number.toBits.toBitVec) =
      signOf negative := by
  rw [unpackSign_of_ofFloat found]
  cases negative <;> rfl

/-- The exponent and the mantissa of a finite number, by its rank. -/
theorem toNat_unpackExponent_of_ofFloat
    (found : ofFloat number = .finite negative rank) :
    (@unpackExponent Format.binary64 number.toBits.toBitVec).toNat =
        rank / 2 ^ 52 ∧
      (@unpackMantissa Format.binary64 number.toBits.toBitVec).toNat =
        rank % 2 ^ 52 := by
  have components := rank_eq_components found
  have bound :
      (@unpackMantissa Format.binary64 number.toBits.toBitVec).toNat <
        2 ^ 52 :=
    BitVec.isLt _
  omega

/-- A number of rank zero is a zero. -/
theorem unpacked_of_rank_zero (found : ofFloat number = .finite negative 0) :
    unpacked number = .zero (signOf negative) := by
  obtain ⟨exponent, mantissa⟩ := toNat_unpackExponent_of_ofFloat found
  have exponentZero :
      @unpackExponent Format.binary64 number.toBits.toBitVec = 0#_ :=
    BitVec.eq_of_toNat_eq exponent
  have mantissaZero :
      @unpackMantissa Format.binary64 number.toBits.toBitVec = 0#_ :=
    BitVec.eq_of_toNat_eq mantissa
  rw [unpacked, unpack_eq, exponentZero, mantissaZero, signOf_eq found]
  rfl

/-- The mantissa of another number is its significand, and the exponent
counts the doublings of the spacing. -/
theorem unpacked_of_rank_pos (found : ofFloat number = .finite negative rank)
    (positive : 0 < rank) :
    ∃ mantissaPositive : 0 < significand rank,
      unpacked number =
        .finite (signOf negative) (significand rank)
          ((doublings rank : Int) - 1074) mantissaPositive := by
  obtain ⟨exponent, mantissa⟩ := toNat_unpackExponent_of_ofFloat found
  have finite := lt_of_ofFloat found
  simp only [infinityRank] at finite
  have mantissaPositive : 0 < significand rank := by
    rw [significand]
    split <;> omega
  have notFull :
      ¬ @unpackExponent Format.binary64 number.toBits.toBitVec = -1#_ := by
    intro full
    have ones :
        (-1#_ : BitVec Format.binary64.exponentBits).toNat = 2047 := rfl
    rw [full, ones] at exponent
    omega
  refine ⟨mantissaPositive, ?_⟩
  rw [unpacked, unpack_eq, signOf_eq found]
  by_cases zero :
      @unpackExponent Format.binary64 number.toBits.toBitVec = 0#_
  · have exponentZero : rank / 2 ^ 52 = 0 := by
      rw [← exponent, zero]
      rfl
    have something :
        @unpackMantissa Format.binary64 number.toBits.toBitVec ≠ 0#_ := by
      intro nothing
      have mantissaZero : rank % 2 ^ 52 = 0 := by
        rw [← mantissa, nothing]
        rfl
      omega
    rw [zero, ofComponents_subnormal _ something,
      Float.Model.UnpackedFloat.finite.injEq, mantissa, significand, doublings]
    refine ⟨rfl, ?_, ?_⟩
    · split <;> omega
    · omega
  · have exponentPositive : 0 < rank / 2 ^ 52 := by
      rw [← exponent, BitVec.toNat_pos, BitVec.pos_iff_ne_zero]
      exact zero
    rw [ofComponents_normal _ _ notFull zero,
      Float.Model.UnpackedFloat.finite.injEq, exponent, significand,
      doublings, if_neg (by omega)]
    refine ⟨rfl, ?_, ?_⟩
    · exact (toNat_implicitBit_append _).trans (by rw [mantissa])
    · omega

/-! ## Comparisons -/

theorem lt_iff_compare :
    number < other ↔
      (unpacked number).compare (unpacked other) = some .lt := by
  change decide (_ = true) = true ↔ _
  rw [decide_eq_true_iff]
  exact beq_iff_eq

theorem le_iff_compare :
    number ≤ other ↔
      ((unpacked number).compare (unpacked other)).any (·.isLE) = true := by
  change decide (_ = true) = true ↔ _
  rw [decide_eq_true_iff]
  exact Iff.rfl

theorem beq_iff_compare :
    (number == other) = true ↔
      (unpacked number).compare (unpacked other) = some .eq :=
  beq_iff_eq (α := Option Ordering)

/-! ## The order of ranks -/

/-- The rank of a finite float with its sign. -/
def signedRank (negative : Bool) (rank : Nat) : Int :=
  if negative then -rank else rank

@[simp]
theorem signedRank_true (rank : Nat) : signedRank true rank = -rank := rfl

@[simp]
theorem signedRank_false (rank : Nat) : signedRank false rank = rank := rfl

/-- The exponent decides between two magnitudes, and between magnitudes of
the same exponent the mantissa does. -/
theorem compare_doublings_then (rank otherRank : Nat) :
    (compare ((doublings rank : Int) - 1074)
        ((doublings otherRank : Int) - 1074)).then
      (compare (significand rank) (significand otherRank)) =
      compare (rank : Int) otherRank := by
  have whole := doublings_add_significand rank
  have otherWhole := doublings_add_significand otherRank
  have full := doublings_eq_zero_or rank
  have otherFull := doublings_eq_zero_or otherRank
  have bound := significand_lt rank
  have otherBound := significand_lt otherRank
  rcases lt_trichotomy (doublings rank) (doublings otherRank)
    with less | same | more
  · have exponents : compare ((doublings rank : Int) - 1074)
        ((doublings otherRank : Int) - 1074) = .lt :=
      compare_lt_iff_lt.mpr (by omega)
    rw [exponents]
    exact (compare_lt_iff_lt.mpr (by omega)).symm
  · have exponents : compare ((doublings rank : Int) - 1074)
        ((doublings otherRank : Int) - 1074) = .eq :=
      compare_eq_iff_eq.mpr (by omega)
    rw [exponents, Ordering.then]
    rcases lt_trichotomy (significand rank) (significand otherRank)
      with below | equal | above
    · rw [compare_lt_iff_lt.mpr below]
      exact (compare_lt_iff_lt.mpr (by omega)).symm
    · rw [compare_eq_iff_eq.mpr equal]
      exact (compare_eq_iff_eq.mpr (by omega)).symm
    · rw [compare_gt_iff_gt.mpr above]
      exact (compare_gt_iff_gt.mpr (by omega)).symm
  · have exponents : compare ((doublings rank : Int) - 1074)
        ((doublings otherRank : Int) - 1074) = .gt :=
      compare_gt_iff_gt.mpr (by omega)
    rw [exponents]
    exact (compare_gt_iff_gt.mpr (by omega)).symm

/-- Opposite numbers are in the opposite order. -/
theorem compare_neg_neg (first second : Int) :
    compare (-first) (-second) = (compare first second).swap := by
  rcases lt_trichotomy first second with less | rfl | more
  · rw [compare_lt_iff_lt.mpr less]
    exact compare_gt_iff_gt.mpr (Int.neg_lt_neg less)
  · rw [compare_eq_iff_eq.mpr (Eq.refl first)]
    exact compare_eq_iff_eq.mpr rfl
  · rw [compare_gt_iff_gt.mpr more]
    exact compare_lt_iff_lt.mpr (Int.neg_lt_neg more)

/-- Finite floats are compared by their ranks. -/
theorem compare_unpacked (found : ofFloat number = .finite negative rank)
    (otherFound : ofFloat other = .finite otherNegative otherRank) :
    (unpacked number).compare (unpacked other) =
      some (compare (signedRank negative rank)
        (signedRank otherNegative otherRank)) := by
  rcases Nat.eq_zero_or_pos rank with rfl | positive
  · rw [unpacked_of_rank_zero found]
    rcases Nat.eq_zero_or_pos otherRank with rfl | otherPositive
    · rw [unpacked_of_rank_zero otherFound]
      cases negative <;> cases otherNegative <;> rfl
    · obtain ⟨otherMantissa, same⟩ :=
        unpacked_of_rank_pos otherFound otherPositive
      rw [same]
      cases otherNegative with
      | false =>
          refine congrArg some (compare_lt_iff_lt.mpr ?_).symm
          cases negative <;> simpa
      | true =>
          refine congrArg some (compare_gt_iff_gt.mpr ?_).symm
          cases negative <;> simpa
  · obtain ⟨mantissa, here⟩ := unpacked_of_rank_pos found positive
    rw [here]
    rcases Nat.eq_zero_or_pos otherRank with rfl | otherPositive
    · rw [unpacked_of_rank_zero otherFound]
      cases negative with
      | false =>
          refine congrArg some (compare_gt_iff_gt.mpr ?_).symm
          cases otherNegative <;> simpa
      | true =>
          refine congrArg some (compare_lt_iff_lt.mpr ?_).symm
          cases otherNegative <;> simpa
    · obtain ⟨otherMantissa, same⟩ :=
        unpacked_of_rank_pos otherFound otherPositive
      have ranks := compare_doublings_then rank otherRank
      rw [same]
      cases negative with
      | false =>
          cases otherNegative with
          | false => exact congrArg some ranks
          | true =>
              refine congrArg some (compare_gt_iff_gt.mpr ?_).symm
              rw [signedRank_true, signedRank_false]
              omega
      | true =>
          cases otherNegative with
          | false =>
              refine congrArg some (compare_lt_iff_lt.mpr ?_).symm
              rw [signedRank_true, signedRank_false]
              omega
          | true =>
              refine congrArg some (Eq.trans ?_ (compare_neg_neg _ _).symm)
              exact congrArg Ordering.swap ranks

/-! ## The order of values -/

/-- The value of the float with the given signed rank. -/
def valueOfRank (signed : Int) : ℚ :=
  signed.sign * (magnitude signed.natAbs / one)

theorem valueOfRank_neg (signed : Int) :
    valueOfRank (-signed) = -valueOfRank signed := by
  rw [valueOfRank, valueOfRank, Int.sign_neg, Int.natAbs_neg, Int.cast_neg,
    neg_mul]

theorem valueOfRank_natCast (rank : Nat) :
    valueOfRank rank = magnitude rank / one := by
  rw [valueOfRank, Int.natAbs_natCast]
  rcases Nat.eq_zero_or_pos rank with rfl | positive
  · rw [magnitude_zero, Nat.cast_zero (R := ℚ), zero_div, mul_zero]
  · rw [Int.sign_eq_one_of_pos (Int.natCast_pos.mpr positive), Int.cast_one,
      one_mul]

theorem toRat_eq_valueOfRank
    (found : ofFloat number = .finite negative rank) :
    toRat number = valueOfRank (signedRank negative rank) := by
  rw [toRat_of_ofFloat found]
  cases negative with
  | false => exact (valueOfRank_natCast rank).symm
  | true =>
      rw [signedRank_true, valueOfRank_neg, valueOfRank_natCast]
      rfl

section

variable {first second : Int}

/-- Values increase with the signed rank. -/
theorem valueOfRank_lt_iff :
    valueOfRank first < valueOfRank second ↔ first < second := by
  have increasing : StrictMono valueOfRank := by
    refine strictMono_of_odd_strictMonoOn_nonneg valueOfRank_neg ?_
    intro first firstNonneg second secondNonneg less
    obtain ⟨firstRank, rfl⟩ := Int.eq_ofNat_of_zero_le firstNonneg
    obtain ⟨secondRank, rfl⟩ := Int.eq_ofNat_of_zero_le secondNonneg
    rw [valueOfRank_natCast, valueOfRank_natCast]
    exact div_lt_div_of_pos_right
      (cast_magnitude_lt (Int.ofNat_lt.mp less)) cast_one_pos
  exact increasing.lt_iff_lt

theorem valueOfRank_le_iff :
    valueOfRank first ≤ valueOfRank second ↔ first ≤ second := by
  rw [← not_lt, valueOfRank_lt_iff, not_lt]

theorem valueOfRank_inj :
    valueOfRank first = valueOfRank second ↔ first = second := by
  rw [le_antisymm_iff, valueOfRank_le_iff, valueOfRank_le_iff,
    ← le_antisymm_iff]

end

section

variable (finite : number.isFinite = true)
  (otherFinite : other.isFinite = true)

include finite otherFinite

/-- A comparison of finite floats is one of their signed ranks, and so of
their values. -/
theorem exists_compare :
    ∃ first second : Int,
      (unpacked number).compare (unpacked other) =
          some (compare first second) ∧
        toRat number = valueOfRank first ∧
          toRat other = valueOfRank second := by
  obtain ⟨negative, rank, found⟩ := isFinite_iff.mp finite
  obtain ⟨otherNegative, otherRank, otherFound⟩ :=
    isFinite_iff.mp otherFinite
  exact ⟨_, _, compare_unpacked found otherFound,
    toRat_eq_valueOfRank found, toRat_eq_valueOfRank otherFound⟩

theorem lt_iff_toRat_lt : number < other ↔ toRat number < toRat other := by
  obtain ⟨first, second, compared, value, otherValue⟩ :=
    exists_compare finite otherFinite
  rw [lt_iff_compare, compared, value, otherValue,
    valueOfRank_lt_iff, Option.some.injEq, compare_lt_iff_lt]

theorem le_iff_toRat_le : number ≤ other ↔ toRat number ≤ toRat other := by
  obtain ⟨first, second, compared, value, otherValue⟩ :=
    exists_compare finite otherFinite
  rw [le_iff_compare, compared, value, otherValue,
    valueOfRank_le_iff, Option.any_some, Ordering.isLE_iff_ne_gt]
  exact compare_le_iff_le

theorem beq_iff_toRat_eq :
    (number == other) = true ↔ toRat number = toRat other := by
  obtain ⟨first, second, compared, value, otherValue⟩ :=
    exists_compare finite otherFinite
  rw [beq_iff_compare, compared, value, otherValue, valueOfRank_inj,
    Option.some.injEq, compare_eq_iff_eq]

end

/-! ## Single values -/

theorem ofFloat_zero : ofFloat 0 = .finite false 0 :=
  rfl

theorem toRat_zero : toRat 0 = 0 := by
  rw [toRat_of_ofFloat ofFloat_zero, magnitude_zero, Nat.cast_zero, zero_div]
  rfl

/-- Only the zeros have no magnitude. -/
theorem toRat_ne_zero_iff (found : ofFloat number = .finite negative rank) :
    toRat number ≠ 0 ↔ 0 < rank := by
  rw [← abs_pos, abs_toRat_of_ofFloat found,
    div_pos_iff_of_pos_right cast_one_pos, Nat.cast_pos]
  exact magnitude_strictMono.lt_iff_lt (a := 0)

theorem ofFloat_one : ofFloat 1 = .finite false (1023 * 2 ^ 52) :=
  rfl

theorem magnitude_one : magnitude (1023 * 2 ^ 52) = one := by
  decide +kernel

theorem isFinite_zero : (0 : Float).isFinite = true :=
  isFinite_iff.mpr ⟨_, _, ofFloat_zero⟩

theorem isFinite_one : (1 : Float).isFinite = true :=
  isFinite_iff.mpr ⟨_, _, ofFloat_one⟩

theorem isFinite_neg_one : (-1 : Float).isFinite = true :=
  isFinite_iff.mpr ⟨_, _, ofFloat_neg ofFloat_one⟩

theorem toRat_one : toRat 1 = 1 := by
  rw [toRat_of_ofFloat ofFloat_one, magnitude_one]
  exact div_self cast_one_pos.ne'

theorem toRat_neg (found : ofFloat number = .finite negative rank) :
    toRat (-number) = -toRat number := by
  rw [toRat_of_ofFloat found, toRat_of_ofFloat (ofFloat_neg found)]
  cases negative with
  | false => rfl
  | true => exact (neg_neg _).symm

theorem toRat_neg_one : toRat (-1) = -1 := by
  rw [toRat_neg ofFloat_one, toRat_one]

/-- The floats that are integers are those with an integer value. -/
theorem isInteger_iff (found : ofFloat number = .finite negative rank) :
    isInteger number = true ↔ ∃ whole : ℤ, toRat number = whole := by
  have divides : isInteger number = true ↔ one ∣ magnitude rank := by
    rw [isInteger, found, Nat.dvd_iff_mod_eq_zero]
    exact beq_iff_eq
  rw [divides]
  constructor
  · rintro ⟨whole, product⟩
    have value : (magnitude rank / one : ℚ) = whole := by
      rw [product, Nat.cast_mul, mul_comm,
        mul_div_cancel_right₀ _ cast_one_pos.ne']
    rw [toRat_of_ofFloat found, value]
    cases negative with
    | false => exact ⟨whole, (Int.cast_natCast whole).symm⟩
    | true =>
        refine ⟨-whole, ?_⟩
        rw [Int.cast_neg, Int.cast_natCast]
        rfl
  · rintro ⟨whole, value⟩
    have size := abs_toRat_of_ofFloat found
    rw [value, ← Int.cast_abs, Int.abs_eq_natAbs, Int.cast_natCast,
      eq_div_iff cast_one_pos.ne', ← Nat.cast_mul, Nat.cast_inj] at size
    exact ⟨whole.natAbs, by rw [← size, Nat.mul_comm]⟩

end Calculator.Binary64

import Calculator.Expression.Value
import Calculator.Proofs.Binary64.Operations
import Calculator.Proofs.Binary64.Remainder

/-!
# The operator `%` is the exact remainder

The remainder of two finite numbers is what is left of the dividend after the
divisor is taken away as often as the integer part of the quotient says.  It
is calculated without rounding, is less than the divisor, and has the sign
bit of the dividend.  Only a divisor that is a zero is refused.

On the stack of values a remainder becomes positive zero exactly when it is
less than `1e-13`.  The float that is compared with is not that number, but no
other float lies between the two.
-/

namespace Calculator

open Binary64

/-! ## Noise -/

theorem ofFloat_negligible :
    ofFloat negligible = .finite false 4412443251819771522 := rfl

/-- The float lies just above the number after which it is called. -/
theorem magnitude_negligible :
    magnitude (4412443251819771522 - 1) * 10 ^ 13 < one ∧
      one ≤ magnitude 4412443251819771522 * 10 ^ 13 := by
  decide +kernel

/-- The finite numbers that are taken for noise. -/
theorem abs_lt_negligible_iff {number : Float}
    (finite : number.isFinite = true) :
    number.abs < negligible ↔ |toRat number| < 1 / 10 ^ 13 := by
  obtain ⟨negative, rank, found⟩ := isFinite_iff.mp finite
  have bound : negligible.isFinite = true :=
    isFinite_iff.mpr ⟨_, _, ofFloat_negligible⟩
  have compared : number.abs < negligible ↔
      rank < 4412443251819771522 := by
    rw [lt_iff_toRat_lt (isFinite_abs finite) bound,
      toRat_of_ofFloat (ofFloat_abs found),
      toRat_of_ofFloat ofFloat_negligible, if_neg Bool.false_ne_true,
      if_neg Bool.false_ne_true, div_lt_div_iff_of_pos_right cast_one_pos,
      Nat.cast_lt, magnitude_strictMono.lt_iff_lt]
  have same : |toRat number| < 1 / 10 ^ 13 ↔
      magnitude rank * 10 ^ 13 < one := by
    rw [abs_toRat_of_ofFloat found,
      div_lt_div_iff₀ cast_one_pos (by norm_num), one_mul]
    exact_mod_cast Iff.rfl
  obtain ⟨before, beyond⟩ := magnitude_negligible
  rw [compared, same]
  constructor
  · intro less
    have below := magnitude_strictMono.monotone (Nat.le_sub_one_of_lt less)
    exact (Nat.mul_le_mul_right _ below).trans_lt before
  · intro less
    rw [← magnitude_strictMono.lt_iff_lt]
    exact Nat.lt_of_mul_lt_mul_right (less.trans_le beyond)

/-- What is left of a finite number without noise. -/
theorem withoutNoise_eq_ite {number : Float}
    (finite : number.isFinite = true) :
    withoutNoise number =
      if |toRat number| < 1 / 10 ^ 13 then 0 else number := by
  rw [withoutNoise]
  split
  · next noise => exact (if_pos ((abs_lt_negligible_iff finite).mp noise)).symm
  · next noNoise =>
      exact (if_neg (mt (abs_lt_negligible_iff finite).mpr noNoise)).symm

/-! ## The remainder of numbers -/

/-- The sign bit of a number. -/
def signBitOf (number : Float) : Bool :=
  2 ^ 63 ≤ number.toBits.toNat

theorem signBitOf_of_ofFloat {number : Float} {negative : Bool} {rank : Nat}
    (found : ofFloat number = .finite negative rank) :
    signBitOf number = negative := by
  obtain ⟨finite, bits⟩ := ofFloat_eq_finite_iff.mp found
  simp only [infinityRank] at finite
  rw [signBitOf, bits]
  cases negative with
  | false => simp; omega
  | true => simp

theorem apply_remainder_of_ne_zero (library : Elementary)
    (dividend : Float) {divisor : Float} (finite : divisor.isFinite = true)
    (nonzero : toRat divisor ≠ 0) :
    BinaryOperation.remainder.apply library dividend divisor =
      .ok (remainder dividend divisor) := by
  have notZero : (divisor == 0) = false := by
    rw [← Bool.not_eq_true, beq_iff_toRat_eq finite isFinite_zero, toRat_zero]
    exact nonzero
  simp only [BinaryOperation.apply, notZero, if_false, Bool.false_eq_true]

theorem apply_remainder_of_zero (library : Elementary)
    (dividend : Float) {divisor : Float} (zero : divisor = 0 ∨ divisor = -0) :
    BinaryOperation.remainder.apply library dividend divisor =
      .error (.divisionByZero "%" dividend) := by
  have isZero : (divisor == 0) = true := by
    rcases zero with rfl | rfl <;> rfl
  simp only [BinaryOperation.apply, isZero, if_true]

/-- On the stack a remainder takes the place of its two numbers, without
noise. -/
theorem pushValue_remainder (library : Elementary) (dividend divisor : Float)
    (role : Role) (values : List Float) :
    pushValue library (divisor :: dividend :: values)
        (.symbol ⟨role, .binary .remainder⟩) =
      (BinaryOperation.remainder.apply library dividend divisor).map
        (withoutNoise · :: values) :=
  rfl

/-- For finite numbers the operator `%` takes the divisor away from the
dividend as often as the integer part of the quotient says, without rounding.
The result is less than the divisor and has the sign bit of the dividend, also
where it is zero; only as a value on the stack it is made a positive zero, if
it is less than `1e-13`.  A divisor that is a zero is refused, whatever is
divided. -/
theorem apply_remainder_exact (library : Elementary)
    (dividend divisor : Float) :
    (dividend.isFinite = true → divisor.isFinite = true →
      toRat divisor ≠ 0 →
        ∃ result,
          BinaryOperation.remainder.apply library dividend divisor =
              .ok result ∧
            result.isFinite = true ∧
            toRat result =
              toRat dividend -
                toRat divisor *
                  towardZero (toRat dividend / toRat divisor) ∧
            |toRat result| < |toRat divisor| ∧
            signBitOf result = signBitOf dividend ∧
            ∀ role values,
              pushValue library (divisor :: dividend :: values)
                  (.symbol ⟨role, .binary .remainder⟩) =
                .ok ((if |toRat result| < 1 / 10 ^ 13 then 0 else result) ::
                  values)) ∧
      (divisor = 0 ∨ divisor = -0 →
        BinaryOperation.remainder.apply library dividend divisor =
            .error (.divisionByZero "%" dividend) ∧
          ∀ role values,
            pushValue library (divisor :: dividend :: values)
                (.symbol ⟨role, .binary .remainder⟩) =
              .error (.divisionByZero "%" dividend)) := by
  constructor
  · intro finite divisorFinite nonzero
    obtain ⟨negative, rank, found⟩ := isFinite_iff.mp finite
    obtain ⟨divisorNegative, divisorRank, divisorFound⟩ :=
      isFinite_iff.mp divisorFinite
    have divides := (toRat_ne_zero_iff divisorFound).mp nonzero
    obtain ⟨other, isFound, -⟩ :=
      ofFloat_remainder found divisorFound divides
    have isFinite : (remainder dividend divisor).isFinite = true :=
      isFinite_iff.mpr ⟨_, _, isFound⟩
    have applied := apply_remainder_of_ne_zero library dividend divisorFinite
      nonzero
    refine ⟨_, applied, isFinite, toRat_remainder found divisorFound divides,
      abs_toRat_remainder_lt found divisorFound divides, ?_, ?_⟩
    · rw [signBitOf_of_ofFloat isFound, signBitOf_of_ofFloat found]
    · intro role values
      rw [pushValue_remainder, applied, ← withoutNoise_eq_ite isFinite]
      rfl
  · intro zero
    have refused := apply_remainder_of_zero library dividend zero
    refine ⟨refused, fun role values => ?_⟩
    rw [pushValue_remainder, refused]
    rfl

/-- The opposite of the largest number, divided by the third smallest one: the
quotient has more than two thousand bits. -/
theorem apply_remainder_exact_extremes :
    (signed true (infinityRank - 1)).isFinite = true ∧
      (signed false 3).isFinite = true ∧ toRat (signed false 3) ≠ 0 ∧
      ∃ result,
        BinaryOperation.remainder.apply Elementary.system
              (signed true (infinityRank - 1)) (signed false 3) =
            .ok result ∧
          |toRat result| < |toRat (signed false 3)| ∧
          signBitOf result = true := by
  have largest : infinityRank - 1 < infinityRank := by decide
  have small : 3 < infinityRank := by decide
  have found := ofFloat_signed_of_lt true largest
  have divisorFound := ofFloat_signed_of_lt false small
  have finite := isFinite_iff.mpr ⟨_, _, found⟩
  have divisorFinite := isFinite_iff.mpr ⟨_, _, divisorFound⟩
  have nonzero := (toRat_ne_zero_iff divisorFound).mpr (by decide)
  obtain ⟨result, applied, -, -, less, sign, -⟩ :=
    (apply_remainder_exact Elementary.system _ _).1 finite divisorFinite
      nonzero
  refine ⟨finite, divisorFinite, nonzero, result, applied, less, ?_⟩
  rw [sign, signBitOf_of_ofFloat found]

end Calculator

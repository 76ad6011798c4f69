import Calculator.Proofs.Binary64.Nearest
import Calculator.Proofs.Decimal.Rounding

/-!
# Decimal numbers are rounded correctly

The float that a decimal number denotes is the one nearest to its exact
value, and infinity from the midpoint beyond the largest float on.  It
depends on nothing but the exact value: not on the number of digits, and not
on the size of the exponent.
-/

namespace Calculator.Decimal

variable {number : Decimal}

theorem toRat_nonneg (number : Decimal) : 0 ≤ number.toRat := by
  rw [toRat]
  positivity

/-- Every decimal number lies in the rounding interval of a rank. -/
theorem exists_roundsTo (number : Decimal) :
    ∃ rank, Binary64.RoundsTo number.count rank :=
  Binary64.exists_roundsTo
    (mul_nonneg number.toRat_nonneg Binary64.cast_one_pos.le)

/-- The numbers that have a finite nearest float. -/
theorem nearestRank_lt_iff (number : Decimal) :
    number.nearestRank < Binary64.infinityRank ↔
      number.toRat < 2 ^ 1024 - 2 ^ 970 := by
  obtain ⟨rank, rounds⟩ := number.exists_roundsTo
  have large := Binary64.infinityRank_le_iff rounds
  rw [count, mul_le_mul_iff_left₀ Binary64.cast_one_pos] at large
  rw [nearestRank_eq_min rounds, ← not_le, ← not_le, ← large, Nat.le_min]
  exact not_congr (and_iff_right (Nat.le_refl _))

/-- A number that is not too large denotes the float nearest to it, without
a sign. -/
theorem isNearest_toFloat
    (small : number.toRat < 2 ^ 1024 - 2 ^ 970) :
    Binary64.IsNearest number.toRat number.toFloat := by
  obtain ⟨rank, rounds⟩ := number.exists_roundsTo
  have denoted := nearestRank_eq_min rounds
  have finite : rank < Binary64.infinityRank := by
    have below := number.nearestRank_lt_iff.mpr small
    rw [denoted, min_lt_iff] at below
    exact below.resolve_left (Nat.lt_irrefl _)
  rw [toFloat, denoted, Nat.min_eq_right finite.le]
  exact Binary64.isNearest_signed rounds finite

/-- Equal numbers denote the same float, however they are given. -/
theorem toFloat_eq_of_toRat_eq {other : Decimal}
    (same : number.toRat = other.toRat) :
    number.toFloat = other.toFloat := by
  obtain ⟨rank, rounds⟩ := number.exists_roundsTo
  have otherRounds : Binary64.RoundsTo other.count rank := by
    rwa [count, ← same]
  rw [toFloat, toFloat, nearestRank_eq_min rounds,
    nearestRank_eq_min otherRounds]

end Calculator.Decimal

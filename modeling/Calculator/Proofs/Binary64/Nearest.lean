import Calculator.Proofs.Binary64.Rounding
import Calculator.Proofs.Binary64.Sign
import Mathlib.Data.Rat.Floor

/-!
# The float nearest to a number

A finite float has an exact value.  The float nearest to a number is the one
whose value has the least distance to it; where two floats are equally near,
it is the one with an even significand, that is with a clear last bit.

Every number that is not negative lies in the rounding interval of a rank, if
the ranks are counted on beyond infinity.  The rank is the one of a finite
float exactly when the number is below the midpoint between the largest
finite magnitude and the magnitude that infinity's rank would have.
-/

namespace Calculator.Binary64

/-- The exact value of a finite float.  The other floats have none. -/
def toRat (number : Float) : ℚ :=
  match ofFloat number with
  | .finite false rank => magnitude rank / one
  | .finite true rank => -(magnitude rank / one)
  | _ => 0

/-- The float is the finite one nearest to the number, and the even one of two
that are equally near. -/
structure IsNearest (exact : ℚ) (number : Float) : Prop where
  finite : number.isFinite = true
  nearest : ∀ other : Float, other.isFinite = true →
    |exact - toRat number| ≤ |exact - toRat other|
  ties : ∀ other : Float, other.isFinite = true →
    toRat other ≠ toRat number →
      |exact - toRat other| = |exact - toRat number| →
        number.toBits.toNat % 2 = 0

variable {count : ℚ} {rank : Nat}

/-! ## Every number is rounded -/

theorem RoundsTo.count_nonneg (rounds : RoundsTo count rank) :
    0 ≤ count := by
  have lower : (0 : ℚ) ≤ magnitude (rank - 1) + magnitude rank := by
    positivity
  linarith [rounds.above]

theorem cast_magnitude_lt {first second : Nat} (less : first < second) :
    (magnitude first : ℚ) < magnitude second :=
  Nat.cast_lt.mpr (magnitude_strictMono less)

theorem cast_magnitude_le {first second : Nat} (le : first ≤ second) :
    (magnitude first : ℚ) ≤ magnitude second :=
  Nat.cast_le.mpr (magnitude_strictMono.monotone le)

/-- A magnitude is rounded to itself. -/
theorem roundsTo_magnitude (rank : Nat) : RoundsTo (magnitude rank) rank := by
  have after := cast_magnitude_lt (Nat.lt_succ_self rank)
  rcases Nat.eq_zero_or_pos rank with rfl | positive
  · exact ⟨by simp, by linarith, fun _ => rfl⟩
  · have before := cast_magnitude_lt (Nat.sub_lt positive Nat.one_pos)
    exact RoundsTo.of_lt (by linarith) (by linarith)

/-- The largest magnitude that is not above a number. -/
theorem exists_magnitude_le (nonneg : 0 ≤ count) :
    ∃ rank, magnitude rank ≤ count ∧ count < magnitude (rank + 1) := by
  have exceeded : ∃ rank, count < magnitude rank := by
    refine ⟨⌊count⌋₊ + 1, ?_⟩
    have least : ⌊count⌋₊ + 1 ≤ magnitude (⌊count⌋₊ + 1) :=
      magnitude_strictMono.le_apply
    calc count < (⌊count⌋₊ + 1 : Nat) := by
          exact_mod_cast Nat.lt_floor_add_one count
      _ ≤ magnitude (⌊count⌋₊ + 1) := Nat.cast_le.mpr least
  classical
  have first := Nat.find_spec exceeded
  have before := fun rank => Nat.find_min exceeded (m := rank)
  cases found : Nat.find exceeded with
  | zero =>
      rw [found, magnitude_zero, Nat.cast_zero] at first
      exact absurd nonneg (not_le.mpr first)
  | succ rank =>
      rw [found] at first before
      exact ⟨rank, not_lt.mp (before rank (Nat.lt_succ_self rank)), first⟩

/-- A number between two neighbouring magnitudes rounds to one of them. -/
theorem exists_roundsTo (nonneg : 0 ≤ count) :
    ∃ rank, RoundsTo count rank := by
  obtain ⟨rank, here, next⟩ := exists_magnitude_le nonneg
  have before := cast_magnitude_le (Nat.sub_le rank 1)
  have strict := cast_magnitude_lt (Nat.lt_succ_self rank)
  have after := cast_magnitude_lt (Nat.lt_succ_self (rank + 1))
  have lowerTie : (magnitude (rank - 1) + magnitude rank : ℚ) = 2 * count →
      rank % 2 = 0 := by
    intro tie
    have zero : ¬ rank - 1 < rank := by
      intro less
      linarith [cast_magnitude_lt less]
    omega
  rcases lt_trichotomy (2 * count) (magnitude rank + magnitude (rank + 1))
    with below | midpoint | above
  · exact ⟨rank, by linarith, le_of_lt below,
      fun tie => tie.elim lowerTie fun same => absurd same (ne_of_lt below)⟩
  · rcases Nat.mod_two_eq_zero_or_one rank with even | odd
    · exact ⟨rank, by linarith, le_of_eq midpoint, fun _ => even⟩
    · refine ⟨rank + 1, ?_, ?_, fun _ => by omega⟩
      · rw [Nat.add_sub_cancel]
        exact le_of_eq midpoint.symm
      · linarith
  · refine ⟨rank + 1, RoundsTo.of_lt ?_ (by linarith)⟩
    rw [Nat.add_sub_cancel]
    exact above

/-! ## The largest numbers -/

theorem cast_magnitude_infinityRank :
    (magnitude infinityRank : ℚ) = 2 ^ 1024 * one := by
  have cast (top : Nat) : ((top * one : Nat) : ℚ) = top * one :=
    Nat.cast_mul top one
  rw [magnitude_infinityRank, cast]
  exact congrArg (· * (one : ℚ)) (Nat.cast_pow 2 1024)

/-- The midpoint between the largest finite magnitude and the one that
infinity's rank would have. -/
theorem magnitude_largest_add :
    (magnitude (infinityRank - 1) + magnitude infinityRank : ℚ) =
      2 * ((2 ^ 1024 - 2 ^ 970) * one) := by
  have largest :
      magnitude (infinityRank - 1) + 2 * (2 ^ 970 * one) =
        magnitude infinityRank := by
    decide +kernel
  have largestRat := congrArg (Nat.cast (R := ℚ)) largest
  rw [Nat.cast_add, Nat.cast_mul, Nat.cast_mul, Nat.cast_pow,
    Nat.cast_ofNat] at largestRat
  rw [sub_mul, ← cast_magnitude_infinityRank]
  generalize (2 : ℚ) ^ 970 * one = step at largestRat ⊢
  linarith

/-- The numbers that are too large for a finite float. -/
theorem infinityRank_le_iff (rounds : RoundsTo count rank) :
    infinityRank ≤ rank ↔ (2 ^ 1024 - 2 ^ 970) * one ≤ count := by
  have midpoint := magnitude_largest_add
  generalize (2 ^ 1024 - 2 ^ 970 : ℚ) * one = bound at midpoint ⊢
  constructor
  · intro large
    have here := cast_magnitude_le large
    have before := cast_magnitude_le (Nat.sub_le_sub_right large 1)
    linarith [rounds.above]
  · intro large
    by_contra small
    have finite : rank + 1 ≤ infinityRank := Nat.not_le.mp small
    have here := cast_magnitude_le (Nat.le_sub_one_of_lt finite)
    have next := cast_magnitude_le finite
    have tie : 2 * count = magnitude rank + magnitude (rank + 1) := by
      linarith [rounds.below]
    have largest : rank = infinityRank - 1 := by
      by_contra other
      have less : rank < infinityRank - 1 := by omega
      linarith [cast_magnitude_lt less]
    have even := rounds.ties (.inr tie)
    have odd : (infinityRank - 1) % 2 = 1 := by decide
    omega

/-! ## The nearest magnitude -/

/-- No magnitude is nearer than the one that a number rounds to. -/
theorem abs_sub_magnitude_le (rounds : RoundsTo count rank)
    (other : Nat) :
    |count - magnitude rank| ≤ |count - magnitude other| := by
  rcases lt_trichotomy other rank with less | rfl | more
  · have before := cast_magnitude_le (Nat.le_sub_one_of_lt less)
    have here := cast_magnitude_lt less
    have near : |count - magnitude rank| ≤ count - magnitude other :=
      abs_le.mpr ⟨by linarith [rounds.above], by linarith⟩
    exact near.trans (le_abs_self _)
  · exact le_refl _
  · have after := cast_magnitude_le (Nat.succ_le_of_lt more)
    have here := cast_magnitude_lt more
    have near : |count - magnitude rank| ≤ -(count - magnitude other) :=
      abs_le.mpr ⟨by linarith, by linarith [rounds.below]⟩
    exact near.trans (neg_le_abs _)

/-- Of two magnitudes that are equally near the one with an even rank is
taken. -/
theorem even_of_abs_sub_magnitude_eq (rounds : RoundsTo count rank)
    {other : Nat} (different : other ≠ rank)
    (tie : |count - magnitude other| = |count - magnitude rank|) :
    rank % 2 = 0 := by
  rcases Nat.lt_or_gt_of_ne different with less | more
  · have before := cast_magnitude_le (Nat.le_sub_one_of_lt less)
    have here := cast_magnitude_lt less
    refine rounds.ties (.inl ?_)
    rcases abs_eq_abs.mp tie with same | opposite <;>
      linarith [rounds.above]
  · have after := cast_magnitude_le (Nat.succ_le_of_lt more)
    have here := cast_magnitude_lt more
    refine rounds.ties (.inr ?_)
    rcases abs_eq_abs.mp tie with same | opposite <;>
      linarith [rounds.below]

/-! ## The nearest float -/

theorem toRat_of_ofFloat {number : Float} {negative : Bool}
    (found : ofFloat number = .finite negative rank) :
    toRat number =
      if negative then -(magnitude rank / one : ℚ)
      else magnitude rank / one := by
  rw [toRat, found]
  cases negative <;> rfl

theorem abs_toRat_of_ofFloat {number : Float} {negative : Bool}
    (found : ofFloat number = .finite negative rank) :
    |toRat number| = magnitude rank / one := by
  have nonneg : (0 : ℚ) ≤ magnitude rank / one :=
    div_nonneg (Nat.cast_nonneg _) cast_one_pos.le
  rw [toRat_of_ofFloat found]
  split
  · rw [abs_neg, abs_of_nonneg nonneg]
  · exact abs_of_nonneg nonneg

/-- A number is as near to a float as to the opposite one only if they are
zero. -/
theorem value_eq_zero_of_tie {exact : ℚ}
    (rounds : RoundsTo (exact * one) rank)
    (tie : |exact + magnitude rank / one| =
      |exact - magnitude rank / one|) :
    (magnitude rank / one : ℚ) = 0 := by
  rcases abs_eq_abs.mp tie with same | opposite
  · linarith
  · have zero : exact = 0 := by linarith
    have before : (0 : ℚ) ≤ magnitude (rank - 1) := Nat.cast_nonneg _
    have here : (0 : ℚ) ≤ magnitude rank := Nat.cast_nonneg _
    rw [zero, zero_mul] at rounds
    have nothing : (magnitude rank : ℚ) = 0 := by
      linarith [rounds.above]
    rw [nothing, zero_div]

/-- Distances between numbers, by the distances between their multiples. -/
theorem abs_sub_div_one (exact multiple : ℚ) :
    |exact - multiple / one| = |exact * one - multiple| / one := by
  have positive := cast_one_pos
  rw [← abs_of_pos positive, ← abs_div, abs_of_pos positive, sub_div,
    mul_div_cancel_right₀ _ positive.ne']

/-- A number without a sign is as near to a float without its sign. -/
theorem abs_sub_abs_toRat_le {exact : ℚ} (nonneg : 0 ≤ exact)
    (other : Float) :
    |exact - (|toRat other|)| ≤ |exact - toRat other| := by
  conv_lhs => rw [← abs_of_nonneg nonneg]
  exact abs_abs_sub_abs_le _ _

section

variable {exact : ℚ} (rounds : RoundsTo (exact * one) rank)

include rounds

/-- No float is nearer than the magnitude that the number rounds to. -/
theorem abs_sub_magnitude_le_abs_toRat {other : Float}
    (finite : other.isFinite = true) :
    |exact - magnitude rank / one| ≤ |exact - (|toRat other|)| := by
  obtain ⟨negative, otherRank, found⟩ := isFinite_iff.mp finite
  rw [abs_toRat_of_ofFloat found, abs_sub_div_one, abs_sub_div_one]
  exact div_le_div_of_nonneg_right (abs_sub_magnitude_le rounds _)
    cast_one_pos.le

/-- Of two floats that are equally near the one with an even rank is
taken. -/
theorem even_of_abs_sub_toRat_eq {other : Float}
    (finite : other.isFinite = true)
    (different : toRat other ≠ magnitude rank / one)
    (tie : |exact - toRat other| = |exact - magnitude rank / one|) :
    rank % 2 = 0 := by
  obtain ⟨negative, otherRank, found⟩ := isFinite_iff.mp finite
  have size := abs_toRat_of_ofFloat found
  by_cases same : otherRank = rank
  · -- The other float is the opposite one, and both are as near as each
    -- other only to zero.
    have opposite : toRat other = -(magnitude rank / one) := by
      rw [same] at size
      rcases eq_or_eq_neg_of_abs_eq size with equal | opposite
      · exact absurd equal different
      · exact opposite
    rw [opposite, sub_neg_eq_add] at tie
    rw [opposite, value_eq_zero_of_tie rounds tie, neg_zero] at different
    exact absurd rfl different
  · have nonneg : 0 ≤ exact :=
      nonneg_of_mul_nonneg_left rounds.count_nonneg cast_one_pos
    have unsignedTie := le_antisymm
      ((abs_sub_abs_toRat_le nonneg other).trans_eq tie)
      (abs_sub_magnitude_le_abs_toRat rounds finite)
    rw [size, abs_sub_div_one, abs_sub_div_one,
      div_left_inj' cast_one_pos.ne'] at unsignedTie
    exact even_of_abs_sub_magnitude_eq rounds same unsignedTie

/-- A number is rounded to the float that is nearest to it. -/
theorem isNearest_signed (finite : rank < infinityRank) :
    IsNearest exact (signed false rank) := by
  have found := ofFloat_signed_of_lt false finite
  have value : toRat (signed false rank) = magnitude rank / one :=
    toRat_of_ofFloat found
  have nonneg : 0 ≤ exact :=
    nonneg_of_mul_nonneg_left rounds.count_nonneg cast_one_pos
  constructor
  · exact isFinite_iff.mpr ⟨false, rank, found⟩
  · intro other otherFinite
    rw [value]
    exact (abs_sub_magnitude_le_abs_toRat rounds otherFinite).trans
      (abs_sub_abs_toRat_le nonneg other)
  · intro other otherFinite different tie
    rw [value] at different tie
    rw [toNat_toBits_signed false finite.le]
    exact even_of_abs_sub_toRat_eq rounds otherFinite different tie

end

end Calculator.Binary64

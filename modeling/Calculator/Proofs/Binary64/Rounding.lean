import Calculator.Binary64.Nearest
import Mathlib.Algebra.Order.Field.Basic
import Mathlib.Data.Rat.Cast.Order
import Mathlib.Tactic.Linarith

/-!
# The numbers that round to a magnitude

All numbers that round to the magnitude of one rank form an interval.  It is
bounded by the midpoints to the two neighbouring magnitudes, and the midpoints
belong to it exactly when the rank is even.

The spacing changes below the magnitudes with the least significand, so that
there the lower midpoint is nearer than the upper one.  A number between the
two is rounded on the finer grid, and the finer grid has the magnitude as a
point as well.
-/

namespace Calculator

/-! ## Rounding to a whole number -/

/-- A quotient is rounded to a whole number that is at most one half away,
and only to an even one where it is exactly one half away. -/
theorem roundHalfEven_eq {numerator denominator nearest : Nat}
    (positive : 0 < denominator)
    (above : 2 * (nearest * denominator) ≤ 2 * numerator + denominator)
    (below : 2 * numerator ≤ 2 * (nearest * denominator) + denominator)
    (ties : 2 * (nearest * denominator) = 2 * numerator + denominator ∨
        2 * numerator = 2 * (nearest * denominator) + denominator →
      nearest % 2 = 0) :
    roundHalfEven numerator denominator = nearest := by
  have division := Nat.div_add_mod' numerator denominator
  have remaining := Nat.mod_lt numerator positive
  simp only [roundHalfEven]
  generalize numerator / denominator = quotient at division ⊢
  generalize numerator % denominator = rest at division remaining ⊢
  have notLess : quotient ≤ nearest := by
    by_contra less
    have step := Nat.mul_le_mul_right denominator (Nat.not_le.mp less)
    rw [Nat.succ_mul] at step
    omega
  have notMore : nearest ≤ quotient + 1 := by
    by_contra more
    have step := Nat.mul_le_mul_right denominator (Nat.not_le.mp more)
    rw [Nat.succ_mul, Nat.succ_mul] at step
    omega
  rcases Nat.lt_or_eq_of_le notMore with isBelow | rfl
  · obtain rfl : nearest = quotient := by omega
    rw [if_pos (by omega)]
  · rw [Nat.succ_mul quotient] at above below ties
    rw [if_neg (by omega)]

namespace Binary64

theorem cast_one : (one : ℚ) = 2 ^ 1074 :=
  Nat.cast_pow 2 1074

theorem cast_one_pos : (0 : ℚ) < one := by
  rw [cast_one]
  exact pow_pos two_pos _

/-! ## Ranks and magnitudes -/

theorem significand_lt (rank : Nat) : significand rank < 2 ^ 53 := by
  rw [significand]
  split <;> omega

/-- With a doubled spacing the significand has all its bits. -/
theorem doublings_eq_zero_or (rank : Nat) :
    doublings rank = 0 ∨ 2 ^ 52 ≤ significand rank := by
  rw [doublings, significand]
  split <;> omega

/-- Each doubling of the spacing accounts for `2 ^ 52` ranks. -/
theorem doublings_add_significand (rank : Nat) :
    doublings rank * 2 ^ 52 + significand rank = rank := by
  rw [doublings, significand]
  split <;> omega

/-- The magnitude of a rank that is given by its spacing.  The count of steps
may be one more than a significand has: then it is the least significand of the
next spacing. -/
theorem magnitude_eq {spacing steps : Nat}
    (full : spacing = 0 ∨ 2 ^ 52 ≤ steps) (bound : steps ≤ 2 ^ 53) :
    magnitude (spacing * 2 ^ 52 + steps) = steps * 2 ^ spacing := by
  rcases Nat.lt_or_eq_of_le bound with inside | rfl
  · have spacingRead : doublings (spacing * 2 ^ 52 + steps) = spacing := by
      rw [doublings]
      omega
    have stepsRead : significand (spacing * 2 ^ 52 + steps) = steps := by
      have whole := doublings_add_significand (spacing * 2 ^ 52 + steps)
      rw [spacingRead] at whole
      omega
    rw [magnitude, spacingRead, stepsRead]
  · have spacingRead :
        doublings (spacing * 2 ^ 52 + 2 ^ 53) = spacing + 1 := by
      rw [doublings]
      omega
    have stepsRead :
        significand (spacing * 2 ^ 52 + 2 ^ 53) = 2 ^ 52 := by
      have whole :=
        doublings_add_significand (spacing * 2 ^ 52 + 2 ^ 53)
      rw [spacingRead] at whole
      omega
    rw [magnitude, spacingRead, stepsRead, Nat.pow_succ]
    omega

theorem magnitude_succ (rank : Nat) :
    magnitude (rank + 1) =
      (significand rank + 1) * 2 ^ doublings rank := by
  have full := doublings_eq_zero_or rank
  have bound := significand_lt rank
  conv_lhs => rw [← doublings_add_significand rank, Nat.add_assoc]
  exact magnitude_eq (by omega) bound

/-- Below a magnitude the spacing is that of the magnitude, unless its
significand is the least one with all bits. -/
theorem magnitude_pred {rank : Nat}
    (regular : doublings rank = 0 ∨ significand rank ≠ 2 ^ 52) :
    magnitude (rank - 1) =
      (significand rank - 1) * 2 ^ doublings rank := by
  have full := doublings_eq_zero_or rank
  have bound := significand_lt rank
  have whole := doublings_add_significand rank
  rcases Nat.eq_zero_or_pos rank with rfl | positive
  · simp [significand]
  have split : rank - 1 =
      doublings rank * 2 ^ 52 + (significand rank - 1) := by
    omega
  conv_lhs => rw [split]
  exact magnitude_eq (by omega) (by omega)

/-- Below the least significand with all bits the spacing is halved. -/
theorem magnitude_pred_of_least {rank spacing : Nat}
    (doubled : doublings rank = spacing + 1)
    (least : significand rank = 2 ^ 52) :
    magnitude (rank - 1) = (2 ^ 53 - 1) * 2 ^ spacing := by
  have whole := doublings_add_significand rank
  rw [doubled, least] at whole
  have split : rank - 1 = spacing * 2 ^ 52 + (2 ^ 53 - 1) := by
    omega
  rw [split]
  exact magnitude_eq (by omega) (by omega)

/-- Magnitudes increase with their rank. -/
theorem magnitude_lt_succ (rank : Nat) :
    magnitude rank < magnitude (rank + 1) := by
  rw [magnitude_succ, magnitude]
  exact Nat.mul_lt_mul_of_pos_right (Nat.lt_succ_self _)
    (Nat.two_pow_pos _)

theorem magnitude_strictMono : StrictMono magnitude :=
  strictMono_nat_of_lt_succ magnitude_lt_succ

/-- Every count of steps that fits into a significand is a magnitude, at every
spacing. -/
theorem exists_magnitude_eq {steps : Nat} (bound : steps < 2 ^ 53)
    (spacing : Nat) :
    ∃ rank, magnitude rank = steps * 2 ^ spacing := by
  induction spacing generalizing steps with
  | zero => exact ⟨_, magnitude_eq (Or.inl rfl) bound.le⟩
  | succ spacing ih =>
      rcases Nat.lt_or_ge steps (2 ^ 52) with short | full
      · have shifted : steps * 2 < 2 ^ 53 := by omega
        obtain ⟨rank, same⟩ := ih shifted
        refine ⟨rank, ?_⟩
        rw [same, Nat.mul_assoc, Nat.pow_succ']
      · exact ⟨_, magnitude_eq (Or.inr full) bound.le⟩

/-! ## The interval of a rank -/

/-- A count of the smallest positive magnitude that rounds to a rank: it lies
between the midpoints to the neighbouring magnitudes, and is a midpoint only if
the rank is even. -/
structure RoundsTo (count : ℚ) (rank : Nat) : Prop where
  above : (magnitude (rank - 1) + magnitude rank : ℚ) ≤ 2 * count
  below : 2 * count ≤ (magnitude rank + magnitude (rank + 1) : ℚ)
  ties : (magnitude (rank - 1) + magnitude rank : ℚ) = 2 * count ∨
      2 * count = (magnitude rank + magnitude (rank + 1) : ℚ) →
    rank % 2 = 0

section

variable {rank numerator denominator : Nat}

theorem RoundsTo.of_lt {count : ℚ}
    (above : (magnitude (rank - 1) + magnitude rank : ℚ) < 2 * count)
    (below : 2 * count < (magnitude rank + magnitude (rank + 1) : ℚ)) :
    RoundsTo count rank := by
  refine ⟨le_of_lt above, le_of_lt below, ?_⟩
  rintro (same | same)
  · exact absurd same (ne_of_lt above)
  · exact absurd same (ne_of_lt below)

/-- The interval of a rank in terms of natural numbers. -/
theorem roundsTo_div_iff (positive : 0 < denominator) :
    RoundsTo ((numerator : ℚ) / denominator) rank ↔
      (magnitude (rank - 1) + magnitude rank) * denominator ≤
          2 * numerator ∧
        2 * numerator ≤
            (magnitude rank + magnitude (rank + 1)) * denominator ∧
          ((magnitude (rank - 1) + magnitude rank) * denominator =
                2 * numerator ∨
              2 * numerator =
                (magnitude rank + magnitude (rank + 1)) * denominator →
            rank % 2 = 0) := by
  have positive : (0 : ℚ) < denominator := by exact_mod_cast positive
  have double : 2 * ((numerator : ℚ) / denominator) =
      2 * numerator / denominator := by
    rw [mul_div_assoc]
  have above : ∀ bound : Nat,
      (bound : ℚ) ≤ 2 * ((numerator : ℚ) / denominator) ↔
        bound * denominator ≤ 2 * numerator := by
    intro bound
    rw [double, le_div_iff₀ positive]
    exact_mod_cast Iff.rfl
  have below : ∀ bound : Nat,
      2 * ((numerator : ℚ) / denominator) ≤ bound ↔
        2 * numerator ≤ bound * denominator := by
    intro bound
    rw [double, div_le_iff₀ positive]
    exact_mod_cast Iff.rfl
  have same : ∀ bound : Nat,
      2 * ((numerator : ℚ) / denominator) = bound ↔
        2 * numerator = bound * denominator := by
    intro bound
    rw [le_antisymm_iff, above, below, ← le_antisymm_iff]
  have aboveHere := above (magnitude (rank - 1) + magnitude rank)
  have belowHere := below (magnitude rank + magnitude (rank + 1))
  have sameAbove := same (magnitude (rank - 1) + magnitude rank)
  have sameBelow := same (magnitude rank + magnitude (rank + 1))
  push_cast at aboveHere belowHere sameAbove sameBelow
  constructor
  · rintro ⟨isAbove, isBelow, ties⟩
    refine ⟨aboveHere.mp isAbove, belowHere.mp isBelow, ?_⟩
    rintro (tie | tie)
    · exact ties (Or.inl (sameAbove.mpr tie.symm).symm)
    · exact ties (Or.inr (sameBelow.mpr tie))
  · rintro ⟨isAbove, isBelow, ties⟩
    refine ⟨aboveHere.mpr isAbove, belowHere.mpr isBelow, ?_⟩
    rintro (tie | tie)
    · exact ties (Or.inl (sameAbove.mp tie.symm).symm)
    · exact ties (Or.inr (sameBelow.mp tie))

/-- The spacing at a quotient, by the bounds of its leading bit. -/
theorem log2_sub_eq {quotient spacing : Nat}
    (lower : spacing = 0 ∨ 2 ^ (52 + spacing) ≤ quotient)
    (upper : quotient < 2 ^ (53 + spacing)) :
    quotient.log2 - 52 = spacing := by
  rcases Nat.eq_zero_or_pos quotient with rfl | positive
  · rcases lower with rfl | impossible
    · rfl
    · exact absurd impossible (Nat.not_le.mpr (Nat.two_pow_pos _))
  · have nonzero := Nat.ne_of_gt positive
    have below := (Nat.log2_lt nonzero).mpr upper
    rcases lower with rfl | least
    · omega
    · have above := (Nat.le_log2 nonzero).mpr least
      omega

/-- A quotient with a known spacing, close to a whole number of steps of that
spacing. -/
theorem nearestRank_of_spacing (spacing steps : Nat)
    (positive : 0 < denominator)
    (lower : spacing = 0 ∨
      2 ^ 52 * (denominator * 2 ^ spacing) ≤ numerator)
    (upper : numerator < 2 ^ 53 * (denominator * 2 ^ spacing))
    (above : 2 * (steps * (denominator * 2 ^ spacing)) ≤
      2 * numerator + denominator * 2 ^ spacing)
    (below : 2 * numerator ≤
      2 * (steps * (denominator * 2 ^ spacing)) + denominator * 2 ^ spacing)
    (ties :
      2 * (steps * (denominator * 2 ^ spacing)) =
          2 * numerator + denominator * 2 ^ spacing ∨
        2 * numerator =
          2 * (steps * (denominator * 2 ^ spacing)) +
            denominator * 2 ^ spacing →
      steps % 2 = 0) :
    nearestRank numerator denominator =
      min infinityRank (spacing * 2 ^ 52 + steps) := by
  have regroup : ∀ bits : Nat,
      2 ^ bits * (denominator * 2 ^ spacing) =
        2 ^ (bits + spacing) * denominator := by
    intro bits
    rw [Nat.pow_add, Nat.mul_comm denominator, Nat.mul_assoc]
  rw [regroup] at lower upper
  have spaced : (numerator / denominator).log2 - 52 = spacing := by
    refine log2_sub_eq (lower.imp id fun least => ?_) ?_
    · exact (Nat.le_div_iff_mul_le positive).mpr least
    · exact (Nat.div_lt_iff_lt_mul positive).mpr upper
  rw [nearestRank, spaced, roundHalfEven_eq
    (Nat.mul_pos positive (Nat.two_pow_pos _)) above below ties]

theorem mul_two_pow_mul (steps spacing denominator : Nat) :
    steps * 2 ^ spacing * denominator =
      steps * (denominator * 2 ^ spacing) := by
  rw [Nat.mul_assoc, Nat.mul_comm denominator]

/-- The upper midpoint is half a step above the magnitude. -/
theorem below_of_roundsTo_div (positive : 0 < denominator)
    (rounds : RoundsTo ((numerator : ℚ) / denominator) rank) :
    2 * numerator ≤
        2 * (significand rank * (denominator * 2 ^ doublings rank)) +
          denominator * 2 ^ doublings rank ∧
      (2 * numerator =
          2 * (significand rank * (denominator * 2 ^ doublings rank)) +
            denominator * 2 ^ doublings rank →
        significand rank % 2 = 0) := by
  obtain ⟨-, below, ties⟩ := (roundsTo_div_iff positive).mp rounds
  have whole := doublings_add_significand rank
  rw [magnitude_succ, magnitude.eq_def rank, Nat.add_mul, mul_two_pow_mul,
    mul_two_pow_mul, Nat.succ_mul (significand rank)] at below
  rw [magnitude_succ, magnitude.eq_def rank, Nat.add_mul _ _ denominator,
    Nat.add_mul _ _ denominator, mul_two_pow_mul, mul_two_pow_mul,
    Nat.succ_mul (significand rank)] at ties
  refine ⟨by omega, fun tie => ?_⟩
  have even := ties (Or.inr (by omega))
  omega

/-- The lower midpoint is half a step below the magnitude, or nearer. -/
theorem above_of_roundsTo_div (positive : 0 < denominator)
    (rounds : RoundsTo ((numerator : ℚ) / denominator) rank)
    (regular : doublings rank = 0 ∨ significand rank ≠ 2 ^ 52) :
    2 * (significand rank * (denominator * 2 ^ doublings rank)) ≤
        2 * numerator + denominator * 2 ^ doublings rank ∧
      (2 * (significand rank * (denominator * 2 ^ doublings rank)) =
          2 * numerator + denominator * 2 ^ doublings rank →
        significand rank % 2 = 0) := by
  obtain ⟨above, -, ties⟩ := (roundsTo_div_iff positive).mp rounds
  have whole := doublings_add_significand rank
  have size : 0 < denominator * 2 ^ doublings rank :=
    Nat.mul_pos positive (Nat.two_pow_pos _)
  rw [magnitude_pred regular, magnitude.eq_def rank, Nat.add_mul,
    mul_two_pow_mul, mul_two_pow_mul, Nat.sub_mul] at above ties
  refine ⟨by omega, fun tie => ?_⟩
  have even := ties (Or.inl (by omega))
  omega

/-- A quotient in the interval, not below the spacing of the magnitude. -/
theorem nearestRank_of_coarse (positive : 0 < denominator)
    (rounds : RoundsTo ((numerator : ℚ) / denominator) rank)
    (coarse : doublings rank = 0 ∨
      2 ^ 52 * (denominator * 2 ^ doublings rank) ≤ numerator) :
    nearestRank numerator denominator = min infinityRank rank := by
  obtain ⟨below, tiesBelow⟩ := below_of_roundsTo_div positive rounds
  have bound := Nat.mul_le_mul_right (denominator * 2 ^ doublings rank)
    (significand_lt rank)
  have size : 0 < denominator * 2 ^ doublings rank :=
    Nat.mul_pos positive (Nat.two_pow_pos _)
  have above : 2 * (significand rank * (denominator * 2 ^ doublings rank)) ≤
        2 * numerator + denominator * 2 ^ doublings rank ∧
      (2 * (significand rank * (denominator * 2 ^ doublings rank)) =
          2 * numerator + denominator * 2 ^ doublings rank →
        significand rank % 2 = 0) := by
    by_cases regular : doublings rank = 0 ∨ significand rank ≠ 2 ^ 52
    · exact above_of_roundsTo_div positive rounds regular
    · obtain ⟨doubled, least⟩ := not_or.mp regular
      have reached := coarse.resolve_left doubled
      rw [not_not.mp least]
      generalize 2 ^ 52 * (denominator * 2 ^ doublings rank) = point
        at reached ⊢
      omega
  rw [Nat.succ_mul] at bound
  rw [nearestRank_of_spacing _ _ positive coarse (by omega) above.1 below
    (fun tie => tie.elim above.2 tiesBelow), doublings_add_significand]

/-- A quotient in the interval, below the spacing of the magnitude: it is on
the finer grid, which has the magnitude as a point. -/
theorem nearestRank_of_fine (positive : 0 < denominator)
    (rounds : RoundsTo ((numerator : ℚ) / denominator) rank)
    (doubled : doublings rank ≠ 0)
    (fine : numerator < 2 ^ 52 * (denominator * 2 ^ doublings rank)) :
    nearestRank numerator denominator = min infinityRank rank := by
  have full := (doublings_eq_zero_or rank).resolve_left doubled
  have least : significand rank = 2 ^ 52 := by
    by_contra other
    have more := Nat.mul_le_mul_right (denominator * 2 ^ doublings rank)
      (Nat.lt_of_le_of_ne full (Ne.symm other))
    have above :=
      (above_of_roundsTo_div positive rounds (Or.inr other)).1
    rw [Nat.succ_mul] at more
    omega
  obtain ⟨above, -, -⟩ := (roundsTo_div_iff positive).mp rounds
  have whole := doublings_add_significand rank
  obtain ⟨spacing, isSucc⟩ := Nat.exists_eq_succ_of_ne_zero doubled
  have unit : denominator * 2 ^ doublings rank =
      2 * (denominator * 2 ^ spacing) := by
    rw [isSucc, Nat.pow_succ, ← Nat.mul_assoc, Nat.mul_comm]
  rw [magnitude_pred_of_least isSucc least, magnitude, least, Nat.add_mul,
    mul_two_pow_mul, mul_two_pow_mul, unit, Nat.sub_mul] at above
  rw [unit] at fine
  have total : spacing * 2 ^ 52 + 2 ^ 53 = rank := by
    rw [← whole, isSucc, least, Nat.succ_mul, Nat.add_assoc,
      ← Nat.two_mul, ← Nat.pow_succ']
  have small : denominator * 2 ^ spacing ≤
      2 ^ 52 * (denominator * 2 ^ spacing) :=
    Nat.le_mul_of_pos_left _ (Nat.two_pow_pos 52)
  have double : 2 ^ 53 * (denominator * 2 ^ spacing) =
      2 * (2 ^ 52 * (denominator * 2 ^ spacing)) := by
    rw [Nat.pow_succ', Nat.mul_assoc]
  rw [Nat.mul_left_comm (2 ^ 52) 2] at fine above
  generalize 2 ^ 52 * (denominator * 2 ^ spacing) = half at *
  rw [nearestRank_of_spacing spacing (2 ^ 53) positive
    (Or.inr (by omega)) (by omega) (by omega) (by omega)
    (fun _ => by omega), total]

/-- A quotient in the interval of a rank is rounded to it, or to infinity. -/
theorem nearestRank_eq_min (positive : 0 < denominator)
    (rounds : RoundsTo ((numerator : ℚ) / denominator) rank) :
    nearestRank numerator denominator = min infinityRank rank := by
  by_cases coarse : doublings rank = 0 ∨
      2 ^ 52 * (denominator * 2 ^ doublings rank) ≤ numerator
  · exact nearestRank_of_coarse positive rounds coarse
  · obtain ⟨doubled, fine⟩ := not_or.mp coarse
    exact nearestRank_of_fine positive rounds doubled (Nat.not_le.mp fine)

/-- A quotient in the interval of a finite rank is rounded to it. -/
theorem nearestRank_eq_of_roundsTo (positive : 0 < denominator)
    (rounds : RoundsTo ((numerator : ℚ) / denominator) rank)
    (finite : rank < infinityRank) :
    nearestRank numerator denominator = rank := by
  rw [nearestRank_eq_min positive rounds, Nat.min_eq_right finite.le]

end

end Binary64

end Calculator

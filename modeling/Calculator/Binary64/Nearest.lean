import Calculator.Binary64.Basic

/-!
# Rounding to the nearest float

An exact quotient is rounded to the nearest binary64 magnitude, and to the
one with the even significand when two are equally near.  A quotient that
lies at or past the midpoint between the largest finite magnitude and
`2 ^ 1024` becomes infinite.

The rank of the result is a single formula: beyond the first `2 ^ 53` ranks
each doubling of the spacing accounts for `2 ^ 52` of them.
-/

namespace Calculator

/-- The whole number nearest to a quotient; of two equally near ones the
even one. -/
def roundHalfEven (numerator denominator : Nat) : Nat :=
  let below := numerator / denominator
  let rest := numerator % denominator
  if 2 * rest < denominator ∨
      (2 * rest = denominator ∧ below % 2 = 0) then
    below
  else
    below + 1

@[simp]
theorem roundHalfEven_one (numerator : Nat) :
    roundHalfEven numerator 1 = numerator := by
  simp [roundHalfEven, Nat.mod_one]

/-- Rounding goes to one of the two whole neighbours of the quotient. -/
theorem roundHalfEven_eq_or (numerator denominator : Nat) :
    roundHalfEven numerator denominator = numerator / denominator ∨
      roundHalfEven numerator denominator =
        numerator / denominator + 1 := by
  simp only [roundHalfEven]
  split <;> simp

namespace Binary64

-- Powers of natural numbers are the ones of the core library, also in a
-- module that knows of others.
attribute [local instance (high)] instPowNat

/-- The rank of the magnitude nearest to a quotient of smallest positive
magnitudes, or infinity's rank when the quotient is too large. -/
def nearestRank (numerator denominator : Nat) : Nat :=
  let spacing := (numerator / denominator).log2 - 52
  min infinityRank
    (spacing * 2 ^ (52 : Nat) +
      roundHalfEven numerator (denominator * 2 ^ spacing))

theorem nearestRank_le (numerator denominator : Nat) :
    nearestRank numerator denominator ≤ infinityRank :=
  Nat.min_le_left _ _

/-- The float nearest to a quotient of smallest positive magnitudes, with
the given sign. -/
def nearest (negative : Bool) (numerator denominator : Nat) : Float :=
  signed negative (nearestRank numerator denominator)

/-- The float nearest to a natural number. -/
def ofNat (number : Nat) : Float :=
  nearest false (number * one) 1

end Binary64

end Calculator

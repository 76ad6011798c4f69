import Calculator.Decimal.Basic

/-!
# The closest shortest decimal of a float

A float is written with the fewest digits that denote it, and of the numbers
with that many digits the one closest to it is taken.  Numbers inside a
message and in the text of a token are written so, in positional notation
throughout.

All the numbers that denote a float form an interval, bounded by the
midpoints to its two neighbours; the midpoints belong to it exactly when the
rank is even.  The search looks at coarser and coarser grids of decimal
numbers and stops at the coarsest grid that has a point in the interval.  If
a grid has one, then one of the two grid points around the float is such a
point, so that only these have to be tried.  On the grid of `10 ^ -1074` the
float itself is a point.
-/

namespace Calculator.Decimal

-- Powers of natural numbers are the ones of the core library, also in a
-- module that knows of others.
attribute [local instance (high)] instPowNat

/-- The numbers that denote one float, counted in `10 ^ -1074`.  The bounds
are doubled, as they are midpoints. -/
structure Interval where
  /-- Twice the least number, or bound below it. -/
  twiceLower : Nat
  /-- Twice the greatest number, or bound above it. -/
  twiceUpper : Nat
  /-- Whether the bounds themselves denote the float. -/
  closed : Bool
  deriving DecidableEq, Repr

namespace Interval

/-- Whether a number, counted in `10 ^ -1074`, lies in the interval. -/
def contains (interval : Interval) (number : Nat) : Bool :=
  if interval.closed then
    interval.twiceLower ≤ 2 * number && 2 * number ≤ interval.twiceUpper
  else
    interval.twiceLower < 2 * number && 2 * number < interval.twiceUpper

/-- The numbers that denote the float of a nonzero rank. -/
def ofRank (rank : Nat) : Interval where
  twiceLower :=
    (Binary64.magnitude (rank - 1) + Binary64.magnitude rank) *
      5 ^ (1074 : Nat)
  twiceUpper :=
    (Binary64.magnitude rank + Binary64.magnitude (rank + 1)) *
      5 ^ (1074 : Nat)
  closed := rank % 2 == 0

end Interval

/-- The point closest to a number, among the two around it on a grid, that
lies in the interval.  Of two equally close ones it is the larger.  Points
are given by their number on the grid. -/
def closestOnGrid (interval : Interval) (number step : Nat) :
    Option Nat :=
  let below := number / step
  let belowDenotes := interval.contains (below * step)
  let aboveDenotes := interval.contains ((below + 1) * step)
  if belowDenotes && aboveDenotes then
    some (if 2 * (number % step) < step then below else below + 1)
  else if belowDenotes then
    some below
  else if aboveDenotes then
    some (below + 1)
  else
    none

/-- The coarsest grid of `10 ^ place` steps with a point in the interval, no
coarser than the given one, and the point on it.  The finest grid has the
number itself. -/
def closestFrom (interval : Interval) (number : Nat) :
    Nat → Nat × Nat
  | 0 => (number, 0)
  | place + 1 =>
      match closestOnGrid interval number (10 ^ (place + 1)) with
      | some point => (point, place + 1)
      | none => closestFrom interval number place

/-- The decimal number closest to the magnitude of a rank, among the
shortest ones that denote it. -/
def closest (rank : Nat) : Decimal :=
  if rank = 0 then
    ⟨0, 0⟩
  else
    let number := Binary64.magnitude rank * 5 ^ (1074 : Nat)
    let found :=
      closestFrom (Interval.ofRank rank) number (digitsOf number).length
    ⟨found.1, found.2 - 1074⟩

/-- A minus sign, if the number is negative. -/
def signText (negative : Bool) : List Char :=
  if negative then ['-'] else []

/-- A float in positional notation, with the fewest digits that denote it:
`1`, `-0`, `0.0000001`. -/
def plain (number : Float) : String :=
  match Binary64.ofFloat number with
  | .notANumber => "NaN"
  | .infinite negative =>
      String.ofList (signText negative ++ ['i', 'n', 'f'])
  | .finite negative rank =>
      String.ofList (signText negative ++ (closest rank).positional)

end Calculator.Decimal

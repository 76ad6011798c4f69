import Calculator.Binary64.Nearest

/-!
# Whole parts and remainders of floats

The functions of this module act on the exact magnitude of a float, so none
of them loses a digit: the integers next to a float are floats, and so is the
remainder of a division, however far apart dividend and divisor are.

The sign of the argument is kept, that of a zero result included: rounding
`-0.3` to a whole number gives `-0`.
-/

namespace Calculator.Binary64

/-- The largest whole number, as a count of smallest positive magnitudes,
that is not above the given count. -/
def wholeBelow (count : Nat) : Nat := count - count % one

/-- The smallest whole number, as a count of smallest positive magnitudes,
that is not below the given count. -/
def wholeAbove (count : Nat) : Nat := wholeBelow (count + (one - 1))

/-- The whole number nearest to the given count of smallest positive
magnitudes; of two equally near ones the larger. -/
def wholeNearest (count : Nat) : Nat := wholeBelow (count + one / 2)

/-- Replaces the magnitude of a finite float and keeps its sign.  Infinities
and the number that is none stay as they are. -/
def mapMagnitude (change : Bool → Nat → Nat) (number : Float) : Float :=
  match ofFloat number with
  | .finite negative rank =>
      nearest negative (change negative (magnitude rank)) 1
  | _ => number

/-- The largest integer that is not above the number. -/
def floor : Float → Float :=
  mapMagnitude fun negative count =>
    if negative then wholeAbove count else wholeBelow count

/-- The smallest integer that is not below the number. -/
def ceil : Float → Float :=
  mapMagnitude fun negative count =>
    if negative then wholeBelow count else wholeAbove count

/-- The nearest integer; of two equally near ones that farther from zero. -/
def round : Float → Float :=
  mapMagnitude fun _ count => wholeNearest count

/-- Whether the number is an integer. -/
def isInteger (number : Float) : Bool :=
  match ofFloat number with
  | .finite _ rank => magnitude rank % one == 0
  | _ => false

/-- The whole part of the magnitude of a finite number. -/
def wholePart (number : Float) : Nat :=
  match ofFloat number with
  | .finite _ rank => magnitude rank / one
  | _ => 0

/-- The remainder of a division whose quotient is cut toward zero.  It has
the sign of the dividend.  An infinite dividend has none, and an infinite
divisor leaves a finite dividend whole. -/
def remainder (dividend divisor : Float) : Float :=
  match ofFloat dividend, ofFloat divisor with
  | .finite negative rank, .finite _ divisorRank =>
      nearest negative (magnitude rank % magnitude divisorRank) 1
  | .finite _ _, .infinite _ => dividend
  | _, _ => Binary64.toFloat .notANumber

end Calculator.Binary64

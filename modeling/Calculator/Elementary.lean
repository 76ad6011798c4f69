/-!
# Elementary functions

Sums, products, quotients and square roots of floats are rounded exactly,
and so are the integers next to a float.  For the other functions of a
calculator no such rule holds: their last digits are decided by the library
that computes them.  A calculation therefore takes the elementary functions
as a parameter, and what is true of calculations for every choice of them
does not hang on any library.

The functions are given for all arguments; a calculation asks for them only
where they are defined.
-/

namespace Calculator

/-- The functions that a calculation takes from a library. -/
structure Elementary where
  sin : Float → Float
  cos : Float → Float
  tan : Float → Float
  asin : Float → Float
  acos : Float → Float
  atan : Float → Float
  sinh : Float → Float
  cosh : Float → Float
  tanh : Float → Float
  asinh : Float → Float
  acosh : Float → Float
  atanh : Float → Float
  exp : Float → Float
  /-- The natural logarithm. -/
  log : Float → Float
  log2 : Float → Float
  log10 : Float → Float
  cbrt : Float → Float
  /-- The first argument to the power of the second. -/
  pow : Float → Float → Float

namespace Elementary

/-- The logarithm of one more than the number.  The rounding of the sum is
made up for by the quotient of the number and what the sum added. -/
def logOnePlus (number : Float) : Float :=
  let sum := 1 + number
  if sum == 1 then
    number
  else if sum == number then
    Float.log number
  else
    Float.log sum * (number / (sum - 1))

/-- The inverse of the hyperbolic tangent, by half the logarithm of
`(1 + x) / (1 - x)`. -/
def inverseTanh (number : Float) : Float :=
  0.5 * logOnePlus (2 * number / (1 - number))

/-- The functions of the system's library; the inverse of the hyperbolic
tangent is taken from its logarithm. -/
def system : Elementary where
  sin := Float.sin
  cos := Float.cos
  tan := Float.tan
  asin := Float.asin
  acos := Float.acos
  atan := Float.atan
  sinh := Float.sinh
  cosh := Float.cosh
  tanh := Float.tanh
  asinh := Float.asinh
  acosh := Float.acosh
  atanh := inverseTanh
  exp := Float.exp
  log := Float.log
  log2 := Float.log2
  log10 := Float.log10
  cbrt := Float.cbrt
  pow := Float.pow

end Elementary

end Calculator

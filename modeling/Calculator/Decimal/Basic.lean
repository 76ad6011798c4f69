import Calculator.Binary64.Nearest

/-!
# Decimal numbers

A decimal number is a coefficient times a power of ten.  This module says
which float it denotes, and writes it in positional notation.

The float is the nearest one to the exact value, however long the
coefficient and however large the exponent are: only the value counts, not
the way in which it is spelled.
-/

namespace Calculator

-- Powers of natural numbers are the ones of the core library, also in a
-- module that knows of others.
attribute [local instance (high)] instPowNat

/-- The number `coefficient * 10 ^ exponent`. -/
structure Decimal where
  /-- The digits, read as one natural number. -/
  coefficient : Nat
  /-- The power of ten of the last digit. -/
  exponent : Int
  deriving DecidableEq, Repr

namespace Decimal

/-- The decimal digits of a natural number, the first one first. -/
def digitsOf (number : Nat) : List Char := Nat.toDigits 10 number

/-- The natural number that a row of digits spells. -/
def ofDigits (digits : List Char) : Nat := Nat.ofDigitChars 10 digits 0

@[simp]
theorem ofDigits_digitsOf (number : Nat) :
    ofDigits (digitsOf number) = number :=
  Nat.ofDigitChars_toDigits (by decide) (by decide)

@[simp]
theorem ofDigits_nil : ofDigits [] = 0 := rfl

theorem isDigit_of_mem_digitsOf {number : Nat} {character : Char}
    (member : character ∈ digitsOf number) : character.isDigit = true :=
  Nat.isDigit_of_mem_toDigits (by decide) (by decide) member

/--
The rank of the float nearest to the number.

No power of ten is built that the coefficient cannot balance: a nonzero
number of more than `10 ^ 400` is infinite, and one below `10 ^ -400` is
nearest to zero.
-/
def nearestRank (number : Decimal) : Nat :=
  if number.coefficient = 0 then
    0
  else if 400 < number.exponent then
    Binary64.infinityRank
  else if number.exponent + number.coefficient.log2 + 1 < -400 then
    0
  else
    Binary64.nearestRank
      (number.coefficient * 10 ^ number.exponent.toNat * Binary64.one)
      (10 ^ (-number.exponent).toNat)

/-- The float nearest to the number. -/
def toFloat (number : Decimal) : Float :=
  Binary64.signed false number.nearestRank

/-- Positional notation: the digits, with zeros or a point where the power
of ten asks for them.  A whole number has no point. -/
def positional (number : Decimal) : List Char :=
  let digits := digitsOf number.coefficient
  let places := (-number.exponent).toNat
  if 0 ≤ number.exponent then
    digits ++ List.replicate number.exponent.toNat '0'
  else if places < digits.length then
    digits.take (digits.length - places) ++
      '.' :: digits.drop (digits.length - places)
  else
    '0' :: '.' ::
      (List.replicate (places - digits.length) '0' ++ digits)

end Decimal

end Calculator

import Calculator.Decimal.Basic

/-!
# Short decimals from 64-bit estimates

Results are shown with few digits that denote the float.  The digits are
found with numbers of 64 bits only: the float and its two midpoints to the
neighbouring floats are multiplied by an estimate of a power of ten that
brings them between `2 ^ 3` and `2 ^ 32`, and the digits of the upper bound
are cut as soon as what is cut off lies between the bounds.  The last digit
is then lowered as long as that comes closer to the float.

Because the bounds are narrowed by the error of the estimates, the digits
always denote the float; they are not always the fewest or the closest ones.
-/

namespace Calculator.Decimal

-- Powers of natural numbers are the ones of the core library, also in a
-- module that knows of others.
attribute [local instance (high)] instPowNat

/-- The number `significand * 2 ^ exponent`, with a significand that is
meant to have 64 bits. -/
structure Estimate where
  /-- The leading bits. -/
  significand : Nat
  /-- The power of two of the last bit. -/
  exponent : Int
  deriving DecidableEq, Repr

namespace Estimate

/-- The same number, with the highest of 64 bits set. -/
def normalize (estimate : Estimate) : Estimate :=
  let shift := 63 - estimate.significand.log2
  ⟨estimate.significand * 2 ^ shift, estimate.exponent - shift⟩

/-- A product, rounded to the upper 64 of its 128 bits. -/
def mul (first second : Estimate) : Estimate :=
  ⟨(first.significand * second.significand + 2 ^ (63 : Nat)) /
      2 ^ (64 : Nat),
    first.exponent + second.exponent + 64⟩

/-- A power of ten, rounded to 64 bits. -/
def powerOfTen (power : Int) : Estimate :=
  let whole := (10 : Nat) ^ power.natAbs
  if 0 ≤ power then
    ⟨roundHalfEven (whole * 2 ^ (63 : Nat)) (2 ^ whole.log2),
      whole.log2 - 63⟩
  else
    ⟨roundHalfEven (2 ^ (64 + whole.log2)) whole,
      -(64 + whole.log2)⟩

/-- The power of ten that brings a normalised number with the given binary
exponent between `2 ^ 3` and `2 ^ 32`.  Only every eighth power is used. -/
def scalingPower (exponent : Int) : Int :=
  let excess := (exponent + 61) * 30103
  let index := (347 - excess / 100000) / 8 + 1
  8 * index - 348

end Estimate

/-- A scaled float between scaled bounds.  All three are counted in
`2 ^ -shift`. -/
structure ScaledBounds where
  /-- The greatest number that surely denotes the float. -/
  upper : Nat
  /-- How far the least number that surely denotes the float is below. -/
  width : Nat
  /-- How far the float is below. -/
  distance : Nat
  /-- The number of bits after the binary point. -/
  shift : Nat
  deriving DecidableEq, Repr

namespace ScaledBounds

/-- The bounds around the magnitude of a nonzero rank, scaled by the given
power of ten.  The products may be off by one in their last bit, by which
the bounds are narrowed. -/
def ofRank (rank : Nat) (scale : Estimate) : ScaledBounds :=
  let significand := Binary64.significand rank
  let exponent : Int := Binary64.doublings rank - 1074
  let upper := Estimate.normalize ⟨2 * significand + 1, exponent - 1⟩
  let lower : Estimate :=
    if significand = 2 ^ (52 : Nat) then
      ⟨4 * significand - 1, exponent - 2⟩
    else
      ⟨2 * significand - 1, exponent - 1⟩
  let lowerSignificand :=
    lower.significand * 2 ^ (lower.exponent - upper.exponent).toNat
  let upperProduct := upper.mul scale
  let lowerProduct :=
    (Estimate.mk lowerSignificand upper.exponent).mul scale
  let product := (Estimate.normalize ⟨significand, exponent⟩).mul scale
  { upper := upperProduct.significand - 1
    width :=
      (upperProduct.significand - 1) - (lowerProduct.significand + 1)
    distance := (upperProduct.significand - 1) - product.significand
    shift := (-upperProduct.exponent).toNat }

/-- How often the last digit is lowered, at most the given number of times:
as long as the number stays above the float and within the bounds, and once
more past the float if that is closer.  `rest` is what has been cut off so
far and `unit` the weight of the last digit. -/
def lowerings (width distance unit : Nat) : Nat → Nat → Nat
  | 0, _ => 0
  | times + 1, rest =>
      if rest < distance ∧ unit ≤ width - rest ∧
          (rest + unit < distance ∨
            rest + unit - distance < distance - rest) then
        lowerings width distance unit times (rest + unit) + 1
      else
        0

/-- The highest power of ten, below the given one, at which the upper bound
can be cut. -/
def wholePlace? (bounds : ScaledBounds) : Nat → Option Nat
  | 0 => none
  | place + 1 =>
      if bounds.upper % (10 ^ place * 2 ^ bounds.shift) ≤ bounds.width then
        some place
      else
        bounds.wholePlace? place

/-- The first digit after the point, from the given one on, at which the
upper bound can be cut.  As many digits are tried as `trials` says. -/
def fractionPlace (bounds : ScaledBounds) : Nat → Nat → Nat
  | 0, place => place
  | trials + 1, place =>
      if bounds.upper * 10 ^ place % 2 ^ bounds.shift <
          bounds.width * 10 ^ place then
        place
      else
        bounds.fractionPlace trials (place + 1)

/-- The digits of a number between the bounds and near the float. -/
def cut (bounds : ScaledBounds) : Decimal :=
  let wholeDigits :=
    (digitsOf (bounds.upper / 2 ^ bounds.shift)).length
  match bounds.wholePlace? wholeDigits with
  | some place =>
      let unit := 10 ^ place * 2 ^ bounds.shift
      ⟨bounds.upper / unit -
          lowerings bounds.width bounds.distance unit 9
            (bounds.upper % unit),
        place⟩
  | none =>
      let place := bounds.fractionPlace bounds.shift 1
      let upper := bounds.upper * 10 ^ place
      let unit := 2 ^ bounds.shift
      let distance :=
        if place < 9 then bounds.distance * 10 ^ place else 0
      ⟨upper / unit -
          lowerings (bounds.width * 10 ^ place) distance unit 9
            (upper % unit),
        -place⟩

end ScaledBounds

/-- A short decimal number that denotes the magnitude of a nonzero rank. -/
def short (rank : Nat) : Decimal :=
  let normalized :=
    Estimate.normalize
      ⟨2 * Binary64.significand rank + 1,
        Binary64.doublings rank - 1075⟩
  let power := Estimate.scalingPower normalized.exponent
  let found := (ScaledBounds.ofRank rank (.powerOfTen power)).cut
  ⟨found.coefficient, found.exponent - power⟩

end Calculator.Decimal

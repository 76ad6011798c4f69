/-!
# Binary64 numbers as whole counts

A binary64 number is a sign and a magnitude.  The finite magnitudes are taken
in increasing order and numbered from zero: the number of a magnitude, its
*rank*, is exactly the bit pattern of the positive float that has it.  Each
finite magnitude is a whole count of the smallest positive one, `2 ^ -1074`,
so that questions about the values of floats become questions about natural
numbers.

Neighbouring ranks are neighbouring floats, also where the spacing changes,
and a rank is even exactly when the significand is.
-/

namespace Calculator

/-- A binary64 number, taken apart. -/
inductive Binary64 where
  /-- No number: the result of an operation that has none. -/
  | notANumber
  /-- Positive or negative infinity. -/
  | infinite (negative : Bool)
  /-- A finite number, by its sign and the rank of its magnitude. -/
  | finite (negative : Bool) (rank : Nat)
  deriving DecidableEq, Repr

namespace Binary64

-- Powers of natural numbers are the ones of the core library, also in a
-- module that knows of others.
attribute [local instance (high)] instPowNat

/-- The rank that infinity would have after the finite magnitudes. -/
def infinityRank : Nat := 2047 * 2 ^ (52 : Nat)

/-- The number of doublings from the spacing of the smallest magnitudes to
the spacing around the given rank. -/
def doublings (rank : Nat) : Nat := rank / 2 ^ (52 : Nat) - 1

/-- The magnitude of the given rank in steps of its own spacing. -/
def significand (rank : Nat) : Nat :=
  if rank < 2 ^ (52 : Nat) then
    rank
  else
    2 ^ (52 : Nat) + rank % 2 ^ (52 : Nat)

/-- The magnitude of the given rank, counted in the smallest positive
magnitude `2 ^ -1074`. -/
def magnitude (rank : Nat) : Nat :=
  significand rank * 2 ^ doublings rank

/-- The count of the smallest positive magnitude that makes one. -/
def one : Nat := 2 ^ (1074 : Nat)

@[simp]
theorem magnitude_zero : magnitude 0 = 0 := rfl

/-- The magnitude that has infinity's rank would be `2 ^ 1024`. -/
theorem magnitude_infinityRank :
    magnitude infinityRank = 2 ^ (1024 : Nat) * one := by
  decide +kernel

/-- Takes a float apart. -/
def ofFloat (number : Float) : Binary64 :=
  let bits := number.toBits.toNat
  let negative := decide (2 ^ (63 : Nat) ≤ bits)
  let rank := bits % 2 ^ (63 : Nat)
  if rank < infinityRank then
    .finite negative rank
  else if rank = infinityRank then
    .infinite negative
  else
    .notANumber

/-- The float with the given sign and the magnitude of the given rank. -/
def signed (negative : Bool) (rank : Nat) : Float :=
  Float.ofBits
    (UInt64.ofNat (if negative then 2 ^ (63 : Nat) + rank else rank))

/-- Puts a float together. -/
def toFloat : Binary64 → Float
  | .notANumber => 0 / 0
  | .infinite negative => signed negative infinityRank
  | .finite negative rank => signed negative rank

end Binary64

end Calculator

import Calculator.Decimal.Closest
import Calculator.Decimal.Estimate

/-!
# The display form of a result

A result is shown in positional notation when its point falls near its
digits, and otherwise with one digit before the point and a power of ten.
Whole numbers in positional notation have a zero after the point: `14.0`,
`12.34`, `0.000001`, `1e21`, `1.5e-7`.
-/

namespace Calculator.Decimal

/-- The digits with the point after the first one, and the power of ten:
`1e21`, `1.5e-7`. -/
def scientific (number : Decimal) : List Char :=
  let digits := digitsOf number.coefficient
  let power := number.exponent + digits.length - 1
  let exponentText :=
    signText (power < 0) ++ digitsOf power.natAbs
  match digits with
  | first :: second :: rest =>
      first :: '.' :: second :: (rest ++ 'e' :: exponentText)
  | _ => digits ++ 'e' :: exponentText

/-- A nonzero decimal number in display form.  Positional notation is used
while at most twenty-one digits stand before the point and at most five
zeros follow it. -/
def displayed (number : Decimal) : List Char :=
  let point := number.exponent + (digitsOf number.coefficient).length
  if -6 < point ∧ point ≤ 21 then
    number.positional ++
      if 0 ≤ number.exponent then ['.', '0'] else []
  else
    number.scientific

/-- A float in display form. -/
def display (number : Float) : String :=
  match Binary64.ofFloat number with
  | .notANumber => "NaN"
  | .infinite negative =>
      String.ofList (signText negative ++ ['i', 'n', 'f'])
  | .finite negative rank =>
      String.ofList
        (signText negative ++
          if rank = 0 then ['0', '.', '0'] else (short rank).displayed)

end Calculator.Decimal

import Calculator.Decimal.Basic

/-!
# Numerals

A numeral is written as digits, an optional point with digits after it, and
an optional exponent: `12`, `.5`, `1.25`, `1e3`, `2.5e-3`.  The digits before
the point may be missing when there is a point.

A numeral is kept as it was written, so that it can be quoted in a message;
its value is the exact decimal number that it spells.  Scanning takes the
longest numeral at the head of a text, and refuses a numeral that breaks off
in its middle.  Reading takes a whole text for a number; it accepts more than
scanning finds, such as a point without digits after it.
-/

namespace Calculator

/-- The sign of an exponent, where one is written. -/
inductive ExponentSign where
  | plus
  | minus
  deriving DecidableEq, Repr

namespace ExponentSign

/-- The character of a sign. -/
def toChar : ExponentSign → Char
  | .plus => '+'
  | .minus => '-'

/-- The sign that a character is. -/
def ofChar? : Char → Option ExponentSign
  | '+' => some .plus
  | '-' => some .minus
  | _ => none

@[simp]
theorem ofChar?_toChar (sign : ExponentSign) :
    ofChar? sign.toChar = some sign := by
  cases sign <;> rfl

theorem toChar_of_ofChar? {character : Char} {sign : ExponentSign}
    (found : ofChar? character = some sign) : sign.toChar = character := by
  unfold ofChar? at found
  split at found <;> cases found <;> rfl

end ExponentSign

/-- The exponent of a numeral, as it is written. -/
structure NumeralExponent where
  /-- The sign, if one is written. -/
  sign : Option ExponentSign
  /-- The digits. -/
  digits : List Char
  deriving DecidableEq, Repr

namespace NumeralExponent

/-- The exponent as it is written, with the letter before it. -/
def spelling (exponent : NumeralExponent) : List Char :=
  'e' :: (exponent.sign.toList.map ExponentSign.toChar ++ exponent.digits)

/-- The number that the exponent denotes. -/
def value (exponent : NumeralExponent) : Int :=
  match exponent.sign with
  | some .minus => -(Decimal.ofDigits exponent.digits : Int)
  | _ => Decimal.ofDigits exponent.digits

end NumeralExponent

/-- An unsigned number, as it is written. -/
structure Numeral where
  /-- The digits before the point. -/
  whole : List Char
  /-- The digits after the point, if there is a point. -/
  fraction : Option (List Char)
  /-- The exponent, if there is one. -/
  exponent : Option NumeralExponent
  deriving DecidableEq, Repr

/-- What can be wrong in the middle of a numeral. -/
inductive NumeralFault where
  /-- No digit follows the point. -/
  | bareFraction
  /-- A second point follows the fraction. -/
  | secondPoint
  /-- No digit follows the sign of the exponent. -/
  | bareExponentSign
  /-- Neither a sign nor a digit follows the letter of the exponent. -/
  | bareExponent
  deriving DecidableEq, Repr

namespace NumeralFault

/-- The words in which a fault is reported. -/
def reason : NumeralFault → String
  | .bareFraction => "floating point without following digits"
  | .secondPoint => "extra floating point"
  | .bareExponentSign => "exponent sign without following digits"
  | .bareExponent => "exponent without following digits"

end NumeralFault

namespace Numeral

/-- The point and the fraction as they are written. -/
def fractionSpelling : Option (List Char) → List Char
  | none => []
  | some digits => '.' :: digits

/-- The numeral as it is written. -/
def spelling (numeral : Numeral) : List Char :=
  numeral.whole ++
    (fractionSpelling numeral.fraction ++
      (numeral.exponent.map NumeralExponent.spelling).getD [])

/-- The exact number that the numeral spells. -/
def value (numeral : Numeral) : Decimal where
  coefficient :=
    Decimal.ofDigits (numeral.whole ++ numeral.fraction.getD [])
  exponent :=
    (numeral.exponent.map NumeralExponent.value).getD 0 -
      (numeral.fraction.getD []).length

/-- The float nearest to the number that the numeral spells. -/
def toFloat (numeral : Numeral) : Float := numeral.value.toFloat

/-- Whether the number that the numeral spells is small enough to have a
finite nearest float. -/
def inRange (numeral : Numeral) : Bool :=
  decide (numeral.value.nearestRank < Binary64.infinityRank)

/-- Whether a numeral can begin with the character. -/
def startsWith (character : Char) : Bool :=
  character.isDigit || character == '.'

/-- Takes a point and the digits after it from the head of a text. -/
def scanFraction :
    List Char →
      Except NumeralFault (Option (List Char) × List Char)
  | '.' :: text =>
      let digits := text.takeWhile Char.isDigit
      let rest := text.dropWhile Char.isDigit
      if digits = [] then
        .error .bareFraction
      else if rest.head? = some '.' then
        .error .secondPoint
      else
        .ok (some digits, rest)
  | text => .ok (none, text)

/-- Takes the sign of an exponent from the head of a text, if there is
one. -/
def scanSign : List Char → Option ExponentSign × List Char
  | [] => (none, [])
  | character :: text =>
      match ExponentSign.ofChar? character with
      | some sign => (some sign, text)
      | none => (none, character :: text)

/-- Takes an exponent from the head of a text. -/
def scanExponent :
    List Char →
      Except NumeralFault (Option NumeralExponent × List Char)
  | 'e' :: text =>
      let (sign, afterSign) := scanSign text
      let digits := afterSign.takeWhile Char.isDigit
      if digits = [] then
        .error (if sign.isSome then .bareExponentSign else .bareExponent)
      else
        .ok (some ⟨sign, digits⟩, afterSign.dropWhile Char.isDigit)
  | text => .ok (none, text)

/-- Takes the longest numeral from the head of a text.  The text is meant to
start with a digit or a point. -/
def scan (text : List Char) :
    Except NumeralFault (Numeral × List Char) := do
  let whole := text.takeWhile Char.isDigit
  let (fraction, afterFraction) ←
    scanFraction (text.dropWhile Char.isDigit)
  let (exponent, rest) ← scanExponent afterFraction
  return (⟨whole, fraction, exponent⟩, rest)

/-- Reads a point and the digits after it, if there is a point. -/
def readFraction : List Char → Option (List Char) × List Char
  | '.' :: text =>
      (some (text.takeWhile Char.isDigit), text.dropWhile Char.isDigit)
  | text => (none, text)

/-- Reads a text to its end: nothing, or an exponent. -/
def readExponent? : List Char → Option (Option NumeralExponent)
  | [] => some none
  | 'e' :: text =>
      let (sign, digits) := scanSign text
      if digits ≠ [] ∧ digits.all Char.isDigit then
        some (some ⟨sign, digits⟩)
      else
        none
  | _ => none

/-- Reads a whole text as a number without a sign.  It has digits before the
point or after it; any other text is not a number. -/
def read? (text : List Char) : Option Numeral :=
  let whole := text.takeWhile Char.isDigit
  let (fraction, rest) := readFraction (text.dropWhile Char.isDigit)
  if whole = [] ∧ fraction.getD [] = [] then
    none
  else
    (readExponent? rest).map fun exponent => ⟨whole, fraction, exponent⟩

theorem spelling_of_scanFraction {text rest : List Char}
    {fraction : Option (List Char)}
    (scanned : scanFraction text = .ok (fraction, rest)) :
    fractionSpelling fraction ++ rest = text := by
  unfold scanFraction at scanned
  split at scanned
  · dsimp only at scanned
    split at scanned
    · cases scanned
    · split at scanned
      · cases scanned
      · cases scanned
        simp [fractionSpelling]
  · cases scanned
    rfl

theorem spelling_of_scanSign (text : List Char) :
    (scanSign text).1.toList.map ExponentSign.toChar ++
        (scanSign text).2 =
      text := by
  cases text with
  | nil => rfl
  | cons character text =>
      simp only [scanSign]
      split
      · next sign found =>
          simp [ExponentSign.toChar_of_ofChar? found]
      · simp

theorem spelling_of_scanExponent {text rest : List Char}
    {exponent : Option NumeralExponent}
    (scanned : scanExponent text = .ok (exponent, rest)) :
    (exponent.map NumeralExponent.spelling).getD [] ++ rest = text := by
  unfold scanExponent at scanned
  split at scanned
  · next text =>
      dsimp only at scanned
      split at scanned
      · cases scanned
      · cases scanned
        simp only [Option.map_some, Option.getD_some,
          NumeralExponent.spelling, List.cons_append, List.append_assoc,
          List.takeWhile_append_dropWhile]
        rw [spelling_of_scanSign]
  · cases scanned
    rfl

/-- The three parts of a numeral are scanned one after the other. -/
theorem scan_eq_ok_iff {text rest : List Char} {numeral : Numeral} :
    scan text = .ok (numeral, rest) ↔
      numeral.whole = text.takeWhile Char.isDigit ∧
        ∃ afterFraction,
          scanFraction (text.dropWhile Char.isDigit) =
              .ok (numeral.fraction, afterFraction) ∧
            scanExponent afterFraction = .ok (numeral.exponent, rest) := by
  obtain ⟨whole, fraction, exponent⟩ := numeral
  cases fractionFound :
      scanFraction (text.dropWhile Char.isDigit) with
  | error fault => simp [scan, fractionFound, bind, Except.bind]
  | ok fractionResult =>
      obtain ⟨fractionText, afterFraction⟩ := fractionResult
      cases exponentFound : scanExponent afterFraction with
      | error fault =>
          simp only [scan, fractionFound, exponentFound, bind,
            Except.bind, reduceCtorEq, Except.ok.injEq, Prod.mk.injEq,
            false_iff]
          rintro ⟨-, after, ⟨-, rfl⟩, failed⟩
          rw [exponentFound] at failed
          cases failed
      | ok exponentResult =>
          simp only [scan, fractionFound, exponentFound, bind,
            Except.bind, pure, Except.pure, Except.ok.injEq,
            Prod.mk.injEq, Numeral.mk.injEq]
          constructor
          · rintro ⟨⟨rfl, rfl, rfl⟩, rfl⟩
            exact ⟨rfl, afterFraction, ⟨rfl, rfl⟩, exponentFound⟩
          · rintro ⟨rfl, after, ⟨rfl, rfl⟩, scanned⟩
            rw [exponentFound] at scanned
            cases scanned
            exact ⟨⟨rfl, rfl, rfl⟩, rfl⟩

/-- Scanning loses nothing: what the numeral spells, followed by the rest,
is the text. -/
theorem spelling_append_of_scan {text rest : List Char}
    {numeral : Numeral} (scanned : scan text = .ok (numeral, rest)) :
    numeral.spelling ++ rest = text := by
  obtain ⟨whole, afterFraction, fraction, exponent⟩ :=
    scan_eq_ok_iff.mp scanned
  rw [spelling, whole, List.append_assoc, List.append_assoc,
    spelling_of_scanExponent exponent, spelling_of_scanFraction fraction,
    List.takeWhile_append_dropWhile]

/-- Where a point stands, a fraction is scanned. -/
theorem fraction_ne_none_of_scanFraction {text rest : List Char}
    {fraction : Option (List Char)}
    (scanned : scanFraction ('.' :: text) = .ok (fraction, rest)) :
    fraction ≠ none := by
  rintro rfl
  simp only [scanFraction] at scanned
  split at scanned
  · cases scanned
  · split at scanned <;> cases scanned

/-- A numeral that is scanned at a digit or a point has a spelling. -/
theorem spelling_ne_nil_of_scan {character : Char}
    {text rest : List Char} {numeral : Numeral}
    (starts : startsWith character = true)
    (scanned : scan (character :: text) = .ok (numeral, rest)) :
    numeral.spelling ≠ [] := by
  intro empty
  simp only [spelling, List.append_eq_nil_iff] at empty
  obtain ⟨whole, afterFraction, fraction, -⟩ :=
    scan_eq_ok_iff.mp scanned
  by_cases digit : character.isDigit = true
  · simp [empty.1, digit] at whole
  · have point : character = '.' := by
      simpa [startsWith, digit] using starts
    subst point
    have unscanned : List.dropWhile Char.isDigit ('.' :: text) =
        '.' :: text := rfl
    rw [unscanned] at fraction
    have written := fraction_ne_none_of_scanFraction fraction
    cases found : numeral.fraction with
    | none => exact written found
    | some digits => simp [found, fractionSpelling] at empty

end Numeral

end Calculator

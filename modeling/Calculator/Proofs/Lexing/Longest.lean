import Calculator.Proofs.Lexing.Literal
import Mathlib.Tactic.Simproc.ExistsAndEq

/-!
# The longest literal at the head of a text

A text that starts with a digit or a point either starts with a literal that
may end where it ends, or its literal breaks off: at a point without digits,
at a second point, or at the letter of an exponent without digits.

Scanning tells the two apart.  The literal that it finds is the longest one
that the text starts with: each of its parts is, and a part that another
literal has is not passed over.
-/

namespace Calculator

theorem takeWhile_eq_nil_iff_stops {class_ : Char → Bool}
    {text : List Char} :
    text.takeWhile class_ = [] ↔ Stops class_ text := by
  cases text with
  | nil => simp
  | cons character text =>
      rw [stops_cons, List.takeWhile_cons]
      cases class_ character <;> simp

/-- A run of a class is not longer than one that the text does not go on
with, and it is the same one if its text does not go on with it either. -/
theorem length_le_of_stops {class_ : Char → Bool}
    {run rest other otherRest : List Char}
    (inside : ∀ c ∈ run, class_ c = true) (stops : Stops class_ rest)
    (otherInside : ∀ c ∈ other, class_ c = true)
    (same : other ++ otherRest = run ++ rest) :
    other.length ≤ run.length ∧
      (Stops class_ otherRest → other = run ∧ otherRest = rest) := by
  have whole := takeWhile_append_of_stops inside stops
  rw [← same, List.takeWhile_append_of_pos otherInside] at whole
  refine ⟨?_, fun otherStops => ?_⟩
  · rw [← whole, List.length_append]
    exact Nat.le_add_right _ _
  · rw [takeWhile_eq_nil_iff_stops.mpr otherStops, List.append_nil]
      at whole
    subst whole
    exact ⟨rfl, List.append_cancel_left same⟩

namespace Numeral

/-- The character is the sign of an exponent. -/
def isSign (character : Char) : Bool :=
  (ExponentSign.ofChar? character).isSome

/-- A text starts with a literal that breaks off in its middle. -/
inductive BreaksOff : NumeralFault → List Char → Prop
  /-- No digit follows the point. -/
  | bareFraction {whole rest : List Char}
      (digits : ∀ c ∈ whole, c.isDigit = true)
      (bare : Stops Char.isDigit rest) :
      BreaksOff .bareFraction (whole ++ '.' :: rest)
  /-- A second point follows the fraction. -/
  | secondPoint {whole fraction rest : List Char}
      (digits : ∀ c ∈ whole, c.isDigit = true)
      (something : fraction ≠ [])
      (fractionDigits : ∀ c ∈ fraction, c.isDigit = true) :
      BreaksOff .secondPoint (whole ++ '.' :: (fraction ++ '.' :: rest))
  /-- No digit follows the sign of the exponent. -/
  | bareExponentSign {numeral : Numeral} {sign : ExponentSign}
      {rest : List Char} (literal : numeral.Literal)
      (unscaled : numeral.exponent = none)
      (bare : Stops Char.isDigit rest) :
      BreaksOff .bareExponentSign
        (numeral.spelling ++ 'e' :: sign.toChar :: rest)
  /-- Neither a sign nor a digit follows the letter of the exponent. -/
  | bareExponent {numeral : Numeral} {rest : List Char}
      (literal : numeral.Literal) (unscaled : numeral.exponent = none)
      (unsigned : Stops isSign rest) (bare : Stops Char.isDigit rest) :
      BreaksOff .bareExponent (numeral.spelling ++ 'e' :: rest)

/-- The numeral is the longest literal that the text starts with. -/
structure Longest (numeral : Numeral) (text : List Char) : Prop where
  literal : numeral.Literal
  isPrefix : numeral.spelling <+: text
  longest : ∀ other : Numeral, other.Literal → other.spelling <+: text →
    other.spelling.length ≤ numeral.spelling.length

/-! ## Literals that break off -/

/-- Scanning fails at the fraction or at the exponent. -/
theorem scan_eq_error {text : List Char} {fault : NumeralFault} :
    scan text = .error fault ↔
      scanFraction (text.dropWhile Char.isDigit) = .error fault ∨
        ∃ fraction afterFraction,
          scanFraction (text.dropWhile Char.isDigit) =
              .ok (fraction, afterFraction) ∧
            scanExponent afterFraction = .error fault := by
  cases fractionFound :
      scanFraction (text.dropWhile Char.isDigit) with
  | error other => simp [scan, fractionFound, bind, Except.bind]
  | ok found =>
      obtain ⟨fraction, afterFraction⟩ := found
      cases exponentFound : scanExponent afterFraction with
      | error other =>
          simp [scan, fractionFound, exponentFound, bind, Except.bind]
      | ok found =>
          simp [scan, fractionFound, exponentFound, bind, Except.bind,
            pure, Except.pure]

theorem scanFraction_eq_error {text : List Char} {fault : NumeralFault} :
    scanFraction text = .error fault ↔
      ∃ rest, text = '.' :: rest ∧
        (fault = .bareFraction ∧ Stops Char.isDigit rest ∨
          fault = .secondPoint ∧ ∃ digits more,
            rest = digits ++ '.' :: more ∧ digits ≠ [] ∧
              ∀ c ∈ digits, c.isDigit = true) := by
  constructor
  · intro failed
    unfold scanFraction at failed
    split at failed
    · next rest =>
        refine ⟨rest, rfl, ?_⟩
        dsimp only at failed
        split at failed
        · next none =>
            cases failed
            exact .inl ⟨rfl, takeWhile_eq_nil_iff_stops.mp none⟩
        · next some =>
            split at failed
            · next point =>
                cases failed
                obtain ⟨more, after⟩ := List.head?_eq_some_iff.mp point
                refine .inr ⟨rfl, rest.takeWhile Char.isDigit, more, ?_,
                  some, fun c member => List.mem_takeWhile_imp member⟩
                rw [← after, List.takeWhile_append_dropWhile]
            · cases failed
    · cases failed
  · rintro ⟨rest, rfl, ⟨rfl, bare⟩ | ⟨rfl, digits, more, rfl, some, inside⟩⟩
    · rw [scanFraction]
      exact if_pos (takeWhile_eq_nil_iff_stops.mpr bare)
    · have stops : Stops Char.isDigit ('.' :: more) := stops_cons.mpr rfl
      simp only [scanFraction, takeWhile_append_of_stops inside stops,
        dropWhile_append_of_stops inside stops, some, if_false,
        List.head?_cons, if_true]

/-- Where no sign stands, none is taken. -/
theorem scanSign_of_stops {text : List Char} (unsigned : Stops isSign text) :
    scanSign text = (none, text) := by
  cases text with
  | nil => rfl
  | cons character text =>
      rw [stops_cons, isSign, Option.isSome_eq_false_iff,
        Option.isNone_iff_eq_none] at unsigned
      rw [scanSign, unsigned]

theorem stops_isSign_of_scanSign {text : List Char}
    (unsigned : (scanSign text).1 = none) : Stops isSign text := by
  cases text with
  | nil => exact stops_nil _
  | cons character text =>
      rw [stops_cons, isSign, Option.isSome_eq_false_iff,
        Option.isNone_iff_eq_none]
      rw [scanSign] at unsigned
      split at unsigned
      · cases unsigned
      · next absent => exact absent

theorem scanExponent_eq_error {text : List Char} {fault : NumeralFault} :
    scanExponent text = .error fault ↔
      ∃ rest, text = 'e' :: rest ∧
        (fault = .bareExponentSign ∧
            (∃ sign more, rest = ExponentSign.toChar sign :: more ∧
              Stops Char.isDigit more) ∨
          fault = .bareExponent ∧ Stops isSign rest ∧
            Stops Char.isDigit rest) := by
  constructor
  · intro failed
    unfold scanExponent at failed
    split at failed
    · next rest =>
        refine ⟨rest, rfl, ?_⟩
        have signed := spelling_of_scanSign rest
        dsimp only at failed
        split at failed
        · next none =>
            have bare := takeWhile_eq_nil_iff_stops.mp none
            cases found : (scanSign rest).1 with
            | none =>
                rw [found] at signed failed
                cases failed
                exact .inr ⟨rfl, stops_isSign_of_scanSign found,
                  signed ▸ bare⟩
            | some sign =>
                rw [found] at signed failed
                cases failed
                exact .inl ⟨rfl, sign, _, signed.symm, bare⟩
        · cases failed
    · cases failed
  · rintro ⟨rest, rfl, ⟨rfl, sign, more, rfl, bare⟩ | ⟨rfl, unsigned, bare⟩⟩
    · have taken := takeWhile_eq_nil_iff_stops.mpr bare
      simp only [scanExponent, scanSign, ExponentSign.ofChar?_toChar, taken,
        if_true, Option.isSome_some]
    · have taken := takeWhile_eq_nil_iff_stops.mpr bare
      simp only [scanExponent, scanSign_of_stops unsigned, taken, if_true,
        Option.isSome_none, Bool.false_eq_true, if_false]

/-- What follows a literal without an exponent is scanned for one. -/
theorem scanFraction_spelling_append {numeral : Numeral}
    (literal : numeral.Literal) (unscaled : numeral.exponent = none)
    {rest : List Char} (noDigit : Stops Char.isDigit rest)
    (noPoint : Stops (· == '.') rest) :
    scanFraction ((numeral.spelling ++ rest).dropWhile Char.isDigit) =
      .ok (numeral.fraction, rest) := by
  have stops : Stops Char.isDigit
      (fractionSpelling numeral.fraction ++ rest) := by
    cases numeral.fraction with
    | none => exact noDigit
    | some digits => exact stops_cons.mpr rfl
  rw [spelling, unscaled, Option.map_none, Option.getD_none,
    List.append_nil, List.append_assoc,
    dropWhile_append_of_stops literal.whole stops]
  exact scanFraction_fractionSpelling literal.fraction noDigit noPoint

/-- Where scanning fails, the literal at the head of the text breaks off. -/
theorem breaksOff_of_scan {first : Char} {text : List Char}
    (starts : startsWith first = true) {fault : NumeralFault}
    (failed : scan (first :: text) = .error fault) :
    BreaksOff fault (first :: text) := by
  have whole := List.takeWhile_append_dropWhile
    (p := Char.isDigit) (l := first :: text)
  have digits : ∀ c ∈ (first :: text).takeWhile Char.isDigit,
      c.isDigit = true := fun c member => List.mem_takeWhile_imp member
  rcases scan_eq_error.mp failed with
    failed | ⟨fraction, afterFraction, found, failed⟩
  · obtain ⟨rest, after, ⟨rfl, bare⟩ |
      ⟨rfl, written, more, rfl, some, inside⟩⟩ :=
      scanFraction_eq_error.mp failed
    · rw [← whole, after]
      exact .bareFraction digits bare
    · rw [← whole, after]
      exact .secondPoint digits some inside
  · have shape :=
      (fraction_of_scanFraction found (stops_dropWhile _ _)).1
    have literal :
        Literal ⟨(first :: text).takeWhile Char.isDigit, fraction, none⟩ :=
      ⟨digits, shape, nofun, starts_of_scanFraction starts found⟩
    have spelled := spelling_of_scanFraction found
    have text_eq :
        spelling ⟨(first :: text).takeWhile Char.isDigit, fraction, none⟩ ++
            afterFraction =
          first :: text := by
      rw [spelling, Option.map_none, Option.getD_none, List.append_nil,
        List.append_assoc, spelled, whole]
    obtain ⟨rest, rfl, ⟨rfl, sign, more, rfl, bare⟩ |
      ⟨rfl, unsigned, bare⟩⟩ := scanExponent_eq_error.mp failed
    · rw [← text_eq]
      exact .bareExponentSign literal rfl bare
    · rw [← text_eq]
      exact .bareExponent literal rfl unsigned bare

/-- A literal that breaks off is not scanned. -/
theorem BreaksOff.scan_eq_error {text : List Char} {fault : NumeralFault}
    (broken : BreaksOff fault text) : scan text = .error fault := by
  apply Numeral.scan_eq_error.mpr
  cases broken with
  | bareFraction digits bare =>
      left
      rw [dropWhile_append_of_stops digits (stops_cons.mpr rfl)]
      exact scanFraction_eq_error.mpr ⟨_, rfl, .inl ⟨rfl, bare⟩⟩
  | secondPoint digits something fractionDigits =>
      left
      rw [dropWhile_append_of_stops digits (stops_cons.mpr rfl)]
      exact scanFraction_eq_error.mpr
        ⟨_, rfl, .inr ⟨rfl, _, _, rfl, something, fractionDigits⟩⟩
  | bareExponentSign literal unscaled bare =>
      right
      exact ⟨_, _,
        scanFraction_spelling_append literal unscaled
          (stops_cons.mpr rfl) (stops_cons.mpr rfl),
        scanExponent_eq_error.mpr ⟨_, rfl, .inl ⟨rfl, _, _, rfl, bare⟩⟩⟩
  | bareExponent literal unscaled unsigned bare =>
      right
      exact ⟨_, _,
        scanFraction_spelling_append literal unscaled
          (stops_cons.mpr rfl) (stops_cons.mpr rfl),
        scanExponent_eq_error.mpr ⟨_, rfl, .inr ⟨rfl, unsigned, bare⟩⟩⟩

/-- Scanning fails exactly where the literal at the head of the text breaks
off. -/
theorem scan_eq_error_iff_breaksOff {first : Char} {text : List Char}
    (starts : startsWith first = true) {fault : NumeralFault} :
    scan (first :: text) = .error fault ↔
      BreaksOff fault (first :: text) :=
  ⟨breaksOff_of_scan starts, BreaksOff.scan_eq_error⟩

/-! ## The longest literal -/

/-- The exponent as it is written, if there is one. -/
def exponentSpelling (exponent : Option NumeralExponent) : List Char :=
  (exponent.map NumeralExponent.spelling).getD []

@[simp]
theorem exponentSpelling_none : exponentSpelling none = [] := rfl

@[simp]
theorem exponentSpelling_some (written : NumeralExponent) :
    exponentSpelling (some written) =
      'e' :: (written.sign.toList.map ExponentSign.toChar ++
        written.digits) := rfl

/-- No exponent that a text starts with is longer than the one that it does
not go on with. -/
theorem length_exponentSpelling_le
    {exponent other : Option NumeralExponent} {rest otherRest : List Char}
    (shape : ∀ written ∈ exponent,
      written.digits ≠ [] ∧ ∀ c ∈ written.digits, c.isDigit = true)
    (otherShape : ∀ written ∈ other,
      written.digits ≠ [] ∧ ∀ c ∈ written.digits, c.isDigit = true)
    (noDigit : Stops Char.isDigit rest)
    (noLetter : exponent = none → Stops (· == 'e') rest)
    (same : exponentSpelling other ++ otherRest =
      exponentSpelling exponent ++ rest) :
    (exponentSpelling other).length ≤ (exponentSpelling exponent).length := by
  cases other with
  | none => exact Nat.zero_le _
  | some otherWritten =>
      cases exponent with
      | none =>
          have letter := noLetter rfl
          rw [exponentSpelling_none, List.nil_append] at same
          rw [← same] at letter
          cases stops_cons.mp letter
      | some written =>
          obtain ⟨something, inside⟩ := shape written rfl
          obtain ⟨otherSomething, otherInside⟩ :=
            otherShape otherWritten rfl
          have signed := scanSign_append written.sign something inside rest
          have otherSigned := scanSign_append otherWritten.sign
            otherSomething otherInside otherRest
          rw [exponentSpelling_some, exponentSpelling_some,
            List.cons_append, List.cons_append] at same
          rw [(List.cons.inj same).2, signed] at otherSigned
          obtain ⟨sign, digits⟩ := Prod.mk.inj otherSigned
          have bound :=
            (length_le_of_stops inside noDigit otherInside digits.symm).1
          simp only [exponentSpelling_some, List.length_cons,
            List.length_append, sign]
          omega

/-- No fraction and exponent that a text starts with are longer than those
that it does not go on with. -/
theorem length_fractionSpelling_add_le {numeral other : Numeral}
    {rest otherRest : List Char} (literal : numeral.Literal)
    (ends : numeral.EndsBefore rest) (otherLiteral : other.Literal)
    (same :
      fractionSpelling other.fraction ++
          (exponentSpelling other.exponent ++ otherRest) =
        fractionSpelling numeral.fraction ++
          (exponentSpelling numeral.exponent ++ rest)) :
    (fractionSpelling other.fraction).length +
        (exponentSpelling other.exponent).length ≤
      (fractionSpelling numeral.fraction).length +
        (exponentSpelling numeral.exponent).length := by
  have exponentBound
      (same : exponentSpelling other.exponent ++ otherRest =
        exponentSpelling numeral.exponent ++ rest) :
      (exponentSpelling other.exponent).length ≤
        (exponentSpelling numeral.exponent).length :=
    length_exponentSpelling_le literal.exponent otherLiteral.exponent
      ends.digit ends.letter same
  have noPoint : Stops (· == '.')
      (exponentSpelling numeral.exponent ++ rest) :=
    stops_point_tail numeral ends
  have noDigit : Stops Char.isDigit
      (exponentSpelling numeral.exponent ++ rest) :=
    stops_isDigit_tail numeral ends
  cases otherFound : other.fraction with
  | none =>
      rw [otherFound] at same
      cases found : numeral.fraction with
      | none =>
          rw [found] at same
          exact Nat.add_le_add_left (exponentBound same) _
      | some digits =>
          -- A point follows the other literal, so it has no exponent.
          rw [found] at same
          cases otherScaled : other.exponent with
          | none => exact Nat.zero_le _
          | some written =>
              rw [otherScaled] at same
              cases (List.cons.inj same).1
  | some otherDigits =>
      rw [otherFound] at same
      cases found : numeral.fraction with
      | none =>
          rw [found, fractionSpelling, List.nil_append] at same
          rw [← same] at noPoint
          cases stops_cons.mp noPoint
      | some digits =>
          rw [found] at same
          have inside := (literal.fraction digits found).2
          have otherInside := (otherLiteral.fraction otherDigits otherFound).2
          have runs := length_le_of_stops inside noDigit otherInside
            (List.cons.inj same).2
          cases otherScaled : other.exponent with
          | none =>
              have bound := runs.1
              simp only [fractionSpelling, exponentSpelling_none,
                List.length_cons, List.length_nil]
              omega
          | some written =>
              have stops : Stops Char.isDigit
                  (exponentSpelling other.exponent ++ otherRest) := by
                rw [otherScaled]
                exact stops_cons.mpr rfl
              obtain ⟨rfl, after⟩ := runs.2 stops
              rw [← otherScaled]
              exact Nat.add_le_add_left (exponentBound after) _

/-- A literal that may end where a text follows is the longest one. -/
theorem longest_of_endsBefore {numeral : Numeral} {rest : List Char}
    (literal : numeral.Literal) (ends : numeral.EndsBefore rest) :
    numeral.Longest (numeral.spelling ++ rest) := by
  refine ⟨literal, List.prefix_append _ _, ?_⟩
  rintro other otherLiteral ⟨otherRest, same⟩
  have tails : ∀ any : Numeral,
      any.spelling = any.whole ++ (fractionSpelling any.fraction ++
        exponentSpelling any.exponent) := fun _ => rfl
  rw [tails, tails, List.append_assoc, List.append_assoc,
    List.append_assoc, List.append_assoc] at same
  have wholeStops := stops_isDigit_fraction numeral ends
  have runs := length_le_of_stops literal.whole wholeStops
    otherLiteral.whole same
  rw [tails, tails, List.length_append, List.length_append,
    List.length_append, List.length_append]
  by_cases alone : fractionSpelling other.fraction ++
      exponentSpelling other.exponent = []
  · rw [← @List.length_append _ (fractionSpelling other.fraction), alone]
    exact runs.1.trans (Nat.le_add_right _ _)
  · have stops : Stops Char.isDigit
        (fractionSpelling other.fraction ++
          (exponentSpelling other.exponent ++ otherRest)) := by
      cases found : other.fraction with
      | some digits => exact stops_cons.mpr rfl
      | none =>
          cases scaled : other.exponent with
          | some written => exact stops_cons.mpr rfl
          | none =>
              rw [found, scaled] at alone
              exact absurd rfl alone
    obtain ⟨wholes, after⟩ := runs.2 stops
    rw [wholes]
    exact Nat.add_le_add_left
      (length_fractionSpelling_add_le literal ends otherLiteral after) _

/-- Unless the literal breaks off, the longest one is scanned. -/
theorem exists_longest {first : Char} {text : List Char}
    (starts : startsWith first = true)
    (unbroken : ∀ fault, ¬ BreaksOff fault (first :: text)) :
    ∃ numeral rest,
      scan (first :: text) = .ok (numeral, rest) ∧
        numeral.Longest (first :: text) := by
  cases scanned : scan (first :: text) with
  | error fault => exact absurd (breaksOff_of_scan starts scanned) (unbroken _)
  | ok found =>
      obtain ⟨numeral, rest⟩ := found
      obtain ⟨literal, ends⟩ := literal_of_scan starts scanned
      refine ⟨numeral, rest, rfl, ?_⟩
      rw [← spelling_append_of_scan scanned]
      exact longest_of_endsBefore literal ends

end Numeral

end Calculator

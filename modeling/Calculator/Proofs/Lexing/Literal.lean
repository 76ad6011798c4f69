import Calculator.Decimal.Numeral
import Calculator.Proofs.Binary64.Bits
import Calculator.Proofs.Outcome
import Mathlib.Data.List.TakeWhile

/-!
# Number literals

A number literal is described without the order in which it is scanned: by
the shape of its parts, and by what may stand after it.  A literal ends before
a character that could not have continued it, so no digit follows; and a
literal without an exponent is not followed by a point or by the letter of an
exponent either, since both would have to belong to it.

The main result says that scanning succeeds exactly on the texts that start
with such a literal, and finds that literal.
-/

namespace Calculator

/-- The text is at its end, or goes on with a character outside the class. -/
def Stops (class_ : Char → Bool) (text : List Char) : Prop :=
  ∀ character ∈ text.head?, class_ character = false

@[simp]
theorem stops_nil (class_ : Char → Bool) : Stops class_ [] := by
  simp [Stops]

@[simp]
theorem stops_cons {class_ : Char → Bool} {character : Char}
    {text : List Char} :
    Stops class_ (character :: text) ↔ class_ character = false := by
  simp [Stops]

/-- What is left after the longest run of a class does not go on with it. -/
theorem stops_dropWhile (class_ : Char → Bool) (text : List Char) :
    Stops class_ (text.dropWhile class_) := by
  intro character first
  have found := List.head?_dropWhile_not class_ text
  rw [Option.mem_def.mp first] at found
  simpa using found

/-- The longest run of a class is the run that the text does not go on
with. -/
theorem takeWhile_append_of_stops {class_ : Char → Bool}
    {run rest : List Char} (inside : ∀ c ∈ run, class_ c = true)
    (stops : Stops class_ rest) :
    (run ++ rest).takeWhile class_ = run := by
  rw [List.takeWhile_append_of_pos inside]
  cases rest with
  | nil => simp
  | cons character rest =>
      rw [stops_cons] at stops
      simp [stops]

theorem dropWhile_append_of_stops {class_ : Char → Bool}
    {run rest : List Char} (inside : ∀ c ∈ run, class_ c = true)
    (stops : Stops class_ rest) :
    (run ++ rest).dropWhile class_ = rest := by
  rw [List.dropWhile_append_of_pos inside]
  cases rest with
  | nil => rfl
  | cons character rest =>
      rw [stops_cons] at stops
      simp [stops]

theorem Decimal.nearestRank_le (number : Decimal) :
    number.nearestRank ≤ Binary64.infinityRank := by
  rw [nearestRank]
  split
  · exact Nat.zero_le _
  · split
    · exact Nat.le_refl _
    · split
      · exact Nat.zero_le _
      · exact Binary64.nearestRank_le _ _

namespace Numeral

/-- A numeral of the form `digits? ('.' digits)? ('e' sign? digits)?` that
starts with a digit or a point. -/
structure Literal (numeral : Numeral) : Prop where
  whole : ∀ c ∈ numeral.whole, c.isDigit = true
  fraction : ∀ digits ∈ numeral.fraction,
    digits ≠ [] ∧ ∀ c ∈ digits, c.isDigit = true
  exponent : ∀ exponent ∈ numeral.exponent,
    exponent.digits ≠ [] ∧ ∀ c ∈ exponent.digits, c.isDigit = true
  starts : numeral.whole ≠ [] ∨ numeral.fraction ≠ none

/-- A literal may end where the given text follows: no digit follows, and
neither a point nor the letter of an exponent follows a literal that has no
exponent. -/
structure EndsBefore (numeral : Numeral) (rest : List Char) : Prop where
  digit : Stops Char.isDigit rest
  point : numeral.exponent = none → Stops (· == '.') rest
  letter : numeral.exponent = none → Stops (· == 'e') rest

/-- The number of the numeral rounds to a finite float without a sign. -/
def Finite (numeral : Numeral) : Prop :=
  ∃ rank,
    Binary64.ofFloat numeral.toFloat = .finite false rank

/-- A numeral is in range exactly when it rounds to a finite float. -/
theorem inRange_iff_finite (numeral : Numeral) :
    numeral.inRange = true ↔ numeral.Finite := by
  rw [inRange, decide_eq_true_iff, Finite, toFloat, Decimal.toFloat]
  constructor
  · intro below
    exact ⟨_, Binary64.ofFloat_signed_of_lt false below⟩
  · rintro ⟨rank, finite⟩
    rcases Nat.lt_or_ge numeral.value.nearestRank Binary64.infinityRank
      with below | above
    · exact below
    · have top :
          numeral.value.nearestRank = Binary64.infinityRank :=
        Nat.le_antisymm (Decimal.nearestRank_le _) above
      rw [top, Binary64.ofFloat_signed_infinityRank] at finite
      cases finite

/-! ## What scanning finds -/

theorem fraction_of_scanFraction {text rest : List Char}
    {fraction : Option (List Char)}
    (scanned : scanFraction text = .ok (fraction, rest))
    (afterDigits : Stops Char.isDigit text) :
    (∀ digits ∈ fraction,
        digits ≠ [] ∧ ∀ c ∈ digits, c.isDigit = true) ∧
      Stops Char.isDigit rest ∧ Stops (· == '.') rest := by
  unfold scanFraction at scanned
  split at scanned
  · next text =>
      dsimp only at scanned
      split at scanned
      · cases scanned
      · next nonempty =>
          split at scanned
          · cases scanned
          · next noPoint =>
              cases scanned
              refine ⟨?_, stops_dropWhile _ _, ?_⟩
              · rintro digits ⟨⟩
                exact
                  ⟨nonempty, fun c member => List.mem_takeWhile_imp member⟩
              · intro character first
                rw [beq_eq_false_iff_ne]
                rintro rfl
                exact noPoint first
  · next noPoint =>
      cases scanned
      refine ⟨by simp, afterDigits, ?_⟩
      intro character first
      rw [beq_eq_false_iff_ne]
      rintro rfl
      obtain ⟨others, rfl⟩ := List.head?_eq_some_iff.mp first
      exact noPoint others rfl

theorem exponent_of_scanExponent {text rest : List Char}
    {exponent : Option NumeralExponent}
    (scanned : scanExponent text = .ok (exponent, rest))
    (afterDigits : Stops Char.isDigit text) :
    (∀ written ∈ exponent,
        written.digits ≠ [] ∧ ∀ c ∈ written.digits, c.isDigit = true) ∧
      Stops Char.isDigit rest ∧
        (exponent = none → rest = text ∧ Stops (· == 'e') rest) := by
  unfold scanExponent at scanned
  split at scanned
  · dsimp only at scanned
    split at scanned
    · cases scanned
    · next nonempty =>
        cases scanned
        refine ⟨?_, stops_dropWhile _ _, by simp⟩
        rintro written ⟨⟩
        exact ⟨nonempty, fun c member => List.mem_takeWhile_imp member⟩
  · next noLetter =>
      cases scanned
      refine ⟨by simp, afterDigits, fun _ => ⟨rfl, ?_⟩⟩
      intro character first
      rw [beq_eq_false_iff_ne]
      rintro rfl
      obtain ⟨others, rfl⟩ := List.head?_eq_some_iff.mp first
      exact noLetter others rfl

/-- At a digit or a point there are digits before the point, or there is a
point. -/
theorem starts_of_scanFraction {first : Char} {text rest : List Char}
    {fraction : Option (List Char)} (starts : startsWith first = true)
    (scanned :
      scanFraction ((first :: text).dropWhile Char.isDigit) =
        .ok (fraction, rest)) :
    (first :: text).takeWhile Char.isDigit ≠ [] ∨ fraction ≠ none := by
  by_cases digit : first.isDigit = true
  · left
    simp [digit]
  · right
    have point : first = '.' := by simpa [startsWith, digit] using starts
    subst point
    have unscanned : List.dropWhile Char.isDigit ('.' :: text) =
        '.' :: text := rfl
    rw [unscanned] at scanned
    exact fraction_ne_none_of_scanFraction scanned

/-- What is scanned at a digit or a point is a literal that may end there. -/
theorem literal_of_scan {first : Char} {text rest : List Char}
    {numeral : Numeral} (starts : startsWith first = true)
    (scanned : scan (first :: text) = .ok (numeral, rest)) :
    numeral.Literal ∧ numeral.EndsBefore rest := by
  obtain ⟨whole, afterFraction, fractionScanned, exponentScanned⟩ :=
    scan_eq_ok_iff.mp scanned
  obtain ⟨fraction, noDigit, noPoint⟩ :=
    fraction_of_scanFraction fractionScanned (stops_dropWhile _ _)
  obtain ⟨exponent, noDigitAfter, withoutExponent⟩ :=
    exponent_of_scanExponent exponentScanned noDigit
  refine ⟨⟨?_, fraction, exponent, ?_⟩, ⟨noDigitAfter, ?_, ?_⟩⟩
  · rw [whole]
    exact fun c member => List.mem_takeWhile_imp member
  · rw [whole]
    exact starts_of_scanFraction starts fractionScanned
  · intro none
    rw [(withoutExponent none).1]
    exact noPoint
  · intro none
    exact (withoutExponent none).2

/-! ## What scanning accepts -/

theorem scanFraction_fractionSpelling {fraction : Option (List Char)}
    {rest : List Char}
    (shape : ∀ digits ∈ fraction,
      digits ≠ [] ∧ ∀ c ∈ digits, c.isDigit = true)
    (noDigit : Stops Char.isDigit rest)
    (noPoint : Stops (· == '.') rest) :
    scanFraction (fractionSpelling fraction ++ rest) =
      .ok (fraction, rest) := by
  cases fraction with
  | none =>
      rw [fractionSpelling, List.nil_append, scanFraction]
      rintro others rfl
      simp at noPoint
  | some digits =>
      obtain ⟨nonempty, inside⟩ := shape digits rfl
      have taken := takeWhile_append_of_stops inside noDigit
      have left := dropWhile_append_of_stops inside noDigit
      have notPoint : rest.head? ≠ some '.' := by
        intro first
        simpa using noPoint '.' first
      simp only [fractionSpelling, List.cons_append, scanFraction, taken,
        left, nonempty, notPoint, if_false]

/-- A sign is taken where one is written, and only there. -/
theorem scanSign_append (sign : Option ExponentSign)
    {digits : List Char} (nonempty : digits ≠ [])
    (inside : ∀ c ∈ digits, c.isDigit = true) (rest : List Char) :
    scanSign (sign.toList.map ExponentSign.toChar ++ digits ++ rest) =
      (sign, digits ++ rest) := by
  cases sign with
  | some sign => simp [scanSign]
  | none =>
      obtain ⟨first, others, rfl⟩ := List.exists_cons_of_ne_nil nonempty
      have digit := inside first (by simp)
      have noSign : ExponentSign.ofChar? first = none := by
        unfold ExponentSign.ofChar?
        split
        · cases digit
        · cases digit
        · rfl
      simp [scanSign, noSign]

theorem scanExponent_spelling {exponent : Option NumeralExponent}
    {rest : List Char}
    (shape : ∀ written ∈ exponent,
      written.digits ≠ [] ∧ ∀ c ∈ written.digits, c.isDigit = true)
    (noDigit : Stops Char.isDigit rest)
    (noLetter : exponent = none → Stops (· == 'e') rest) :
    scanExponent
        ((exponent.map NumeralExponent.spelling).getD [] ++ rest) =
      .ok (exponent, rest) := by
  cases exponent with
  | none =>
      rw [Option.map_none, Option.getD_none, List.nil_append, scanExponent]
      rintro others rfl
      simpa using noLetter rfl
  | some written =>
      obtain ⟨nonempty, inside⟩ := shape written rfl
      have signed :=
        scanSign_append written.sign nonempty inside rest
      have taken := takeWhile_append_of_stops inside noDigit
      have left := dropWhile_append_of_stops inside noDigit
      simp only [Option.map_some, Option.getD_some,
        NumeralExponent.spelling, List.cons_append, scanExponent, signed,
        taken, left, nonempty, if_false]

/-- Where a point or an exponent stands after digits, no digit follows
them. -/
theorem stops_isDigit_tail (numeral : Numeral) {rest : List Char}
    (ends : numeral.EndsBefore rest) :
    Stops Char.isDigit
      ((numeral.exponent.map NumeralExponent.spelling).getD [] ++
        rest) := by
  cases found : numeral.exponent with
  | none => simpa using ends.digit
  | some written => simp [NumeralExponent.spelling]

theorem stops_point_tail (numeral : Numeral) {rest : List Char}
    (ends : numeral.EndsBefore rest) :
    Stops (· == '.')
      ((numeral.exponent.map NumeralExponent.spelling).getD [] ++
        rest) := by
  cases found : numeral.exponent with
  | none => simpa using ends.point found
  | some written => simp [NumeralExponent.spelling]

theorem stops_isDigit_fraction (numeral : Numeral) {rest : List Char}
    (ends : numeral.EndsBefore rest) :
    Stops Char.isDigit
      (fractionSpelling numeral.fraction ++
        ((numeral.exponent.map NumeralExponent.spelling).getD [] ++
          rest)) := by
  cases found : numeral.fraction with
  | none => exact stops_isDigit_tail numeral ends
  | some digits => simp [fractionSpelling]

/-- A literal that may end where a text follows is scanned before it. -/
theorem scan_spelling_append {numeral : Numeral} {rest : List Char}
    (literal : numeral.Literal) (ends : numeral.EndsBefore rest) :
    scan (numeral.spelling ++ rest) = .ok (numeral, rest) := by
  have tailStops := stops_isDigit_tail numeral ends
  have wholeStops := stops_isDigit_fraction numeral ends
  rw [spelling, List.append_assoc, List.append_assoc, scan_eq_ok_iff,
    takeWhile_append_of_stops literal.whole wholeStops,
    dropWhile_append_of_stops literal.whole wholeStops]
  refine
    ⟨rfl,
      (numeral.exponent.map NumeralExponent.spelling).getD [] ++ rest,
      ?_, ?_⟩
  · exact scanFraction_fractionSpelling literal.fraction tailStops
      (stops_point_tail numeral ends)
  · exact scanExponent_spelling literal.exponent ends.digit ends.letter

/-! ## Literals are numbers -/

theorem endsBefore_nil (numeral : Numeral) : numeral.EndsBefore [] :=
  ⟨stops_nil _, fun _ => stops_nil _, fun _ => stops_nil _⟩

theorem readFraction_spelling {fraction : Option (List Char)}
    {rest : List Char}
    (shape : ∀ digits ∈ fraction,
      digits ≠ [] ∧ ∀ c ∈ digits, c.isDigit = true)
    (noDigit : Stops Char.isDigit rest)
    (noPoint : Stops (· == '.') rest) :
    readFraction (fractionSpelling fraction ++ rest) = (fraction, rest) := by
  cases fraction with
  | none =>
      rw [fractionSpelling, List.nil_append, readFraction]
      rintro others rfl
      simp at noPoint
  | some digits =>
      have inside := (shape digits rfl).2
      simp only [fractionSpelling, List.cons_append, readFraction,
        takeWhile_append_of_stops inside noDigit,
        dropWhile_append_of_stops inside noDigit]

theorem readExponent?_spelling {exponent : Option NumeralExponent}
    (shape : ∀ written ∈ exponent,
      written.digits ≠ [] ∧ ∀ c ∈ written.digits, c.isDigit = true) :
    readExponent? ((exponent.map NumeralExponent.spelling).getD []) =
      some exponent := by
  cases exponent with
  | none => rfl
  | some written =>
      obtain ⟨nonempty, inside⟩ := shape written rfl
      have signed := scanSign_append written.sign nonempty inside []
      rw [List.append_nil, List.append_nil] at signed
      simp only [Option.map_some, Option.getD_some,
        NumeralExponent.spelling, readExponent?, signed]
      exact if_pos ⟨nonempty, List.all_eq_true.mpr inside⟩

/-- The spelling of a literal is read as the literal. -/
theorem read?_spelling {numeral : Numeral} (literal : numeral.Literal) :
    read? numeral.spelling = some numeral := by
  have ends := numeral.endsBefore_nil
  have wholeStops := stops_isDigit_fraction numeral ends
  have tailStops := stops_isDigit_tail numeral ends
  have pointStops := stops_point_tail numeral ends
  rw [List.append_nil] at wholeStops tailStops pointStops
  have digits :
      ¬(numeral.whole = [] ∧ numeral.fraction.getD [] = []) := by
    rintro ⟨noWhole, noFraction⟩
    obtain ⟨written, found⟩ := Option.ne_none_iff_exists'.mp
      (literal.starts.resolve_left (not_not.mpr noWhole))
    rw [found, Option.getD_some] at noFraction
    exact (literal.fraction written found).1 noFraction
  simp only [read?, spelling,
    takeWhile_append_of_stops literal.whole wholeStops,
    dropWhile_append_of_stops literal.whole wholeStops,
    readFraction_spelling literal.fraction tailStops pointStops,
    readExponent?_spelling literal.exponent, if_neg digits,
    Option.map_some]

/-- A literal starts with a digit or a point. -/
theorem Literal.exists_head {numeral : Numeral}
    (literal : numeral.Literal) :
    ∃ first,
      numeral.spelling.head? = some first ∧ startsWith first = true := by
  rcases literal.starts with digits | point
  · obtain ⟨first, others, whole⟩ := List.exists_cons_of_ne_nil digits
    have digit := literal.whole first (by simp [whole])
    exact
      ⟨first, by simp [spelling, whole], by simp [startsWith, digit]⟩
  · obtain ⟨digits, fraction⟩ := Option.ne_none_iff_exists'.mp point
    cases whole : numeral.whole with
    | nil =>
        refine ⟨'.', ?_, rfl⟩
        simp [spelling, whole, fraction, fractionSpelling]
    | cons first others =>
        have digit := literal.whole first (by simp [whole])
        exact
          ⟨first, by simp [spelling, whole], by simp [startsWith, digit]⟩

end Numeral

end Calculator

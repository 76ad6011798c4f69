import Calculator.Proofs.Decimal.Nearest
import Calculator.Proofs.Lexing.Longest
import Calculator.Proofs.Lexing.Tokens

/-!
# The numbers that literals denote

A literal denotes a rational number: the number before the point, and a
fraction with as many places as it has digits, scaled by a power of ten.  The
main result says which literal is read at a position of a text, and that it
is read as the float nearest to the number that it denotes, unless that
number is too large for a float.
-/

namespace Calculator

namespace Numeral

/-- The number that the numeral denotes. -/
def toRat (numeral : Numeral) : ℚ :=
  (Decimal.ofDigits numeral.whole +
      Decimal.ofDigits (numeral.fraction.getD []) /
        10 ^ (numeral.fraction.getD []).length) *
    10 ^ (numeral.exponent.map NumeralExponent.value).getD 0

/-- Digits that are written after others move them by as many places. -/
theorem ofDigits_append (first second : List Char) :
    Decimal.ofDigits (first ++ second) =
      Decimal.ofDigits first * 10 ^ second.length +
        Decimal.ofDigits second := by
  rw [Decimal.ofDigits, Nat.ofDigitChars_append,
    Nat.ofDigitChars_eq_ofDigitChars_zero, Nat.mul_comm]
  rfl

/-- The coefficient and the exponent of a numeral give the number that it
denotes. -/
theorem toRat_value (numeral : Numeral) :
    numeral.value.toRat = numeral.toRat := by
  rw [toRat, Decimal.toRat, value]
  generalize numeral.fraction.getD [] = fraction
  generalize (numeral.exponent.map NumeralExponent.value).getD 0 = exponent
  have places : (10 : ℚ) ^ fraction.length ≠ 0 := by positivity
  rw [ofDigits_append, zpow_sub₀ (by norm_num), zpow_natCast]
  push_cast
  field_simp

/-- The numerals in range are those that denote a number below the midpoint
beyond the largest float. -/
theorem inRange_iff (numeral : Numeral) :
    numeral.inRange = true ↔ numeral.toRat < 2 ^ 1024 - 2 ^ 970 := by
  rw [inRange, decide_eq_true_iff, Decimal.nearestRank_lt_iff, toRat_value]

end Numeral

namespace NumeralFault

theorem reason_injective : Function.Injective reason := by
  intro first second same
  cases first <;> cases second <;> simp_all [reason]

end NumeralFault

namespace Lexeme

variable {chars : List Char} {start : Nat}

/-- A numeral at a position, as a slice of the text. -/
theorem slice_of_spelling_append {spelling rest : List Char}
    (spelled : spelling ++ rest = chars.drop start)
    (something : spelling ≠ []) :
    start < start + spelling.length ∧
      start + spelling.length ≤ chars.length ∧
      chars.drop (start + spelling.length) = rest ∧
      (chars.take (start + spelling.length)).drop start = spelling := by
  have positive := List.length_pos_iff.mpr something
  have lengths := congrArg List.length spelled
  rw [List.length_append, List.length_drop] at lengths
  refine ⟨by omega, by omega, ?_, ?_⟩
  · rw [← List.drop_drop, ← spelled, List.drop_left]
  · rw [List.drop_take, Nat.add_sub_cancel_left, ← spelled, List.take_left]

/-- A numeral is malformed exactly where its literal breaks off. -/
theorem readNumeral_eq_malformed_iff {first : Char} {text : List Char}
    (starts : Numeral.startsWith first = true) {index place : Nat}
    {reason : String} :
    readNumeral index (first :: text) =
        .error (.malformedNumeral place reason) ↔
      place = index ∧ ∃ fault : NumeralFault,
        reason = fault.reason ∧ Numeral.BreaksOff fault (first :: text) := by
  rw [readNumeral_eq index starts]
  constructor
  · intro failed
    split at failed
    · next fault scanned =>
        cases failed
        exact ⟨rfl, fault, rfl, Numeral.breaksOff_of_scan starts scanned⟩
    · split at failed <;> cases failed
  · rintro ⟨rfl, fault, rfl, broken⟩
    rw [broken.scan_eq_error]

/-- A numeral that is scanned is refused if the number that it denotes is too
large for a float, and is read as the nearest float otherwise. -/
theorem readNumeral_of_scan {first : Char} {text rest : List Char}
    (starts : Numeral.startsWith first = true) (index : Nat)
    {numeral : Numeral}
    (scanned : Numeral.scan (first :: text) = .ok (numeral, rest)) :
    (2 ^ 1024 - 2 ^ 970 ≤ numeral.toRat →
      readNumeral index (first :: text) =
        .error (.numeralOutOfRange (String.ofList numeral.spelling))) ∧
      (numeral.toRat < 2 ^ 1024 - 2 ^ 970 →
        readNumeral index (first :: text) =
            .ok (.numeral numeral, rest) ∧
          numeral.Finite ∧
          Binary64.IsNearest numeral.toRat numeral.toFloat) := by
  rw [readNumeral_eq index starts, scanned]
  constructor
  · intro large
    exact if_neg (mt numeral.inRange_iff.mp (not_lt.mpr large))
  · intro small
    have inRange := numeral.inRange_iff.mpr small
    refine ⟨if_pos inRange, numeral.inRange_iff_finite.mp inRange, ?_⟩
    rw [← numeral.toRat_value] at small ⊢
    exact Decimal.isNearest_toFloat small

/-- At a digit or a point of a text the longest literal is read, unless it
breaks off.  It is refused exactly if the number that it denotes is too large
for a float, and denotes the nearest float otherwise.  Literals that denote
the same number denote the same float. -/
theorem readNumeral_longest_nearest (chars : List Char) (start : Nat)
    {first : Char} (found : chars[start]? = some first)
    (starts : Numeral.startsWith first = true) :
    let text := chars.drop start
    (∀ fault,
        Numeral.scan text = .error fault ↔
          Numeral.BreaksOff fault text) ∧
      Function.Injective NumeralFault.reason ∧
      (∀ index reason,
        readNumeral start text = .error (.malformedNumeral index reason) ↔
          index = start ∧ ∃ fault : NumeralFault,
            reason = fault.reason ∧ Numeral.BreaksOff fault text) ∧
      ((∀ fault, ¬ Numeral.BreaksOff fault text) →
        ∃ numeral stop,
          start < stop ∧ stop ≤ chars.length ∧
            Numeral.scan text = .ok (numeral, chars.drop stop) ∧
            numeral.spelling = (chars.take stop).drop start ∧
            numeral.Longest text ∧
            (2 ^ 1024 - 2 ^ 970 ≤ numeral.toRat →
              readNumeral start text =
                .error (.numeralOutOfRange
                  (String.ofList numeral.spelling))) ∧
            (numeral.toRat < 2 ^ 1024 - 2 ^ 970 →
              readNumeral start text =
                  .ok (.numeral numeral, chars.drop stop) ∧
                numeral.Finite ∧
                Binary64.IsNearest numeral.toRat numeral.toFloat)) ∧
      ∀ numeral other : Numeral, numeral.toRat = other.toRat →
        numeral.toFloat.toBits = other.toFloat.toBits := by
  intro text
  obtain ⟨inside, isFirst⟩ := List.getElem?_eq_some_iff.mp found
  have text_eq : text = first :: chars.drop (start + 1) := by
    rw [← isFirst]
    exact List.drop_eq_getElem_cons inside
  rw [text_eq]
  refine ⟨fun fault => Numeral.scan_eq_error_iff_breaksOff starts,
    NumeralFault.reason_injective,
    fun index reason => readNumeral_eq_malformed_iff starts,
    fun unbroken => ?_, fun numeral other same => ?_⟩
  · obtain ⟨numeral, rest, scanned, longest⟩ :=
      Numeral.exists_longest starts unbroken
    have something := Numeral.spelling_ne_nil_of_scan starts scanned
    have spelled := Numeral.spelling_append_of_scan scanned
    rw [← text_eq] at spelled
    obtain ⟨forward, within, after, slice⟩ :=
      slice_of_spelling_append spelled something
    obtain ⟨tooLarge, nearest⟩ := readNumeral_of_scan starts start scanned
    rw [← after] at scanned nearest
    exact ⟨numeral, _, forward, within, scanned, slice.symm, longest,
      tooLarge, nearest⟩
  · rw [← numeral.toRat_value, ← other.toRat_value] at same
    exact congrArg Float.toBits (Decimal.toFloat_eq_of_toRat_eq same)

/-- A fraction without digits before the point, inside a product. -/
theorem readNumeral_longest_nearest_half :
    "2*.5".toList[2]? = some '.' ∧
      Numeral.startsWith '.' = true ∧
      ∃ numeral stop,
        2 < stop ∧
          Numeral.scan ("2*.5".toList.drop 2) =
            .ok (numeral, "2*.5".toList.drop stop) ∧
          numeral.Longest ("2*.5".toList.drop 2) := by
  have found : "2*.5".toList[2]? = some '.' := rfl
  have starts : Numeral.startsWith '.' = true := rfl
  have scanned : Numeral.scan ("2*.5".toList.drop 2) =
      .ok (⟨[], some ['5'], none⟩, []) := rfl
  obtain ⟨faults, -, -, unbroken, -⟩ :=
    readNumeral_longest_nearest "2*.5".toList 2 found starts
  obtain ⟨numeral, stop, forward, -, read, -, longest, -, -⟩ :=
    unbroken fun fault broken => by
      have failed := (faults fault).mpr broken
      rw [scanned] at failed
      cases failed
  exact ⟨found, starts, numeral, stop, forward, read, longest⟩

/-! ## The numbers of a text -/

/-- A number among the tokens is that of a numeral. -/
theorem exists_numeral_of_mem_tokens {lexemes : List Lexeme}
    {afterOperand : Bool} {value : Float}
    (member : Token.number value ∈ tokens afterOperand lexemes) :
    ∃ written, .numeral written ∈ lexemes ∧ value = written.toFloat := by
  induction lexemes generalizing afterOperand with
  | nil => cases member
  | cons lexeme lexemes ih =>
      rw [tokens_cons] at member
      rcases List.mem_cons.mp member with first | others
      · obtain ⟨written, rfl⟩ : ∃ written, lexeme = .numeral written := by
          rcases lexeme with written | (_ | _ | _) | _ | _ | _ <;>
            simp_all [token]
        exact ⟨written, List.mem_cons_self, Token.number.inj first⟩
      · obtain ⟨written, inside, same⟩ := ih others
        exact ⟨written, List.mem_cons_of_mem _ inside, same⟩

end Lexeme

/-- The numbers of a text are finite. -/
theorem isFinite_of_mem_tokenize {text : String} {tokens : List Token}
    (scanned : tokenize text = .ok tokens) {value : Float}
    (member : .number value ∈ tokens) : value.isFinite = true := by
  obtain ⟨cut, -, accepted, rfl⟩ := tokenize_eq_ok_iff.mp scanned
  obtain ⟨written, inside, rfl⟩ := Lexeme.exists_numeral_of_mem_tokens member
  obtain ⟨piece, isPiece, isNumeral⟩ := List.mem_map.mp inside
  obtain ⟨before, after, split⟩ := List.append_of_mem isPiece
  have stands := accepted.toLexical.stands before piece after split
  rw [isNumeral] at stands
  obtain ⟨rank, found⟩ := stands.2.1
  exact Binary64.isFinite_iff.mpr ⟨_, rank, found⟩

end Calculator

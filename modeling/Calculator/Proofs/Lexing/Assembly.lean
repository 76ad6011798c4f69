import Calculator.Proofs.Lexing.Exchange
import Calculator.Proofs.Lexing.Tokens

/-!
# Texts put together from lexemes

Where a text is put together, it is scanned piece by piece.  A lexeme that may
stand before the rest is the first one that is found, blanks are passed over,
and a sign separates the lexemes before it from those after it.  The position at
which a text starts does not matter to its lexemes.
-/

namespace Calculator

namespace Lexeme

variable {gap text rest : List Char} {lexemes others : List Lexeme}

/-- The position of a text does not matter to its lexemes. -/
theorem scanFrom_eq_ok_iff (index : Nat) :
    scanFrom index text = .ok lexemes ↔ scan text = .ok lexemes := by
  constructor
  · intro scanned
    exact Cut.scan_eq_ok_iff.mpr (Cut.exists_lexical_of_scanFrom scanned)
  · intro scanned
    obtain ⟨cut, lexical, rfl, rfl⟩ := Cut.scan_eq_ok_iff.mp scanned
    exact lexical.scanFrom_text index

theorem scan_nil : scan [] = .ok [] := by
  rw [scan, scanFrom]

/-- Blanks before a text are passed over. -/
theorem scan_gap_append (blank : Blank gap)
    (scanned : scan text = .ok lexemes) :
    scan (gap ++ text) = .ok lexemes := by
  rw [scan, Cut.scanFrom_blank_append 0 blank, scanFrom_eq_ok_iff]
  exact scanned

/-- A lexeme that may stand before the rest of a text is its first one. -/
theorem scan_spelling_append_iff (lexeme : Lexeme)
    (stands : lexeme.StandsBefore rest) :
    scan (lexeme.spelling ++ rest) = .ok lexemes ↔
      ∃ others, scan rest = .ok others ∧ lexeme :: others = lexemes := by
  obtain ⟨first, spelled, shape, notBlank⟩ := exists_head_of_standsBefore stands
  have whole : lexeme.spelling ++ rest = first :: (spelled ++ rest) := by
    rw [shape, List.cons_append]
  have isRead := read_of_standsBefore 0 whole stands
  rw [whole, scan, Cut.scanFrom_of_read notBlank isRead,
    Outcome.map_eq_ok_iff]
  simp only [scanFrom_eq_ok_iff]

theorem scan_sign_append (sign : Lexeme) (isSign : sign.isSign = true)
    (scanned : scan rest = .ok lexemes) :
    scan (sign.spelling ++ rest) = .ok (sign :: lexemes) :=
  (scan_spelling_append_iff sign (standsBefore_of_isSign isSign rest)).mpr
    ⟨lexemes, scanned, rfl⟩

/-- A numeral may be followed by a sign or a blank. -/
theorem scan_numeral_append {written : Numeral} (literal : written.Literal)
    (finite : written.Finite) (stops : Stops goesOn rest)
    (scanned : scan rest = .ok lexemes) :
    scan (written.spelling ++ rest) = .ok (.numeral written :: lexemes) :=
  (scan_spelling_append_iff (.numeral written)
    ⟨literal, finite, .of_stops stops⟩).mpr ⟨lexemes, scanned, rfl⟩

/-- A sign separates what stands before it from what follows. -/
theorem scan_append_sign (scanned : scan text = .ok lexemes) (sign : Lexeme)
    (isSign : sign.isSign = true) (restScanned : scan rest = .ok others) :
    scan (text ++ (sign.spelling ++ rest)) =
      .ok (lexemes ++ sign :: others) := by
  obtain ⟨left, lexical, rfl, rfl⟩ := Cut.scan_eq_ok_iff.mp scanned
  obtain ⟨right, rightLexical, rfl, rfl⟩ := Cut.scan_eq_ok_iff.mp restScanned
  exact Cut.scan_eq_ok_iff.mpr
    ⟨left.join sign right, lexical.join_sign isSign rightLexical,
      Cut.text_join left right sign, Cut.lexemes_join left right sign⟩

/-! ## Tokens of a row of lexemes -/

theorem tokens_append_closeBracket (lexemes rest : List Lexeme) :
    tokens false (lexemes ++ .closeBracket :: rest) =
      tokens false lexemes ++ .closeBracket :: tokens true rest :=
  tokens_append_cons false lexemes rest fun _ => rfl

theorem tokens_append_exclamation (lexemes rest : List Lexeme) :
    tokens false (lexemes ++ .mark .exclamation :: rest) =
      tokens false lexemes ++
        .operator (.unary .factorial) :: tokens false rest :=
  tokens_append_cons false lexemes rest fun _ => rfl

end Lexeme

/-- An expression is scanned into lexemes, at least one, with as many opening
as closing brackets. -/
theorem tokenize_eq_ok_iff_scan {text : String} {tokens : List Token} :
    tokenize text = .ok tokens ↔
      ∃ lexemes, Lexeme.scan text.toList = .ok lexemes ∧ lexemes ≠ [] ∧
        lexemes.count .openBracket = lexemes.count .closeBracket ∧
          tokens = Lexeme.tokens false lexemes := by
  rw [tokenize_eq_ok_iff]
  constructor
  · rintro ⟨cut, same, accepted, denoted⟩
    exact ⟨cut.lexemes,
      Cut.scan_eq_ok_iff.mpr ⟨cut, accepted.toLexical, same, rfl⟩,
      accepted.nonempty, accepted.brackets, denoted⟩
  · rintro ⟨lexemes, scanned, nonempty, brackets, denoted⟩
    obtain ⟨cut, lexical, same, rfl⟩ := Cut.scan_eq_ok_iff.mp scanned
    exact ⟨cut, same, ⟨lexical, nonempty, brackets⟩, denoted⟩

end Calculator

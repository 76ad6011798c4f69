import Calculator.Proofs.Lexing.Lexeme

/-!
# Cutting a text into lexemes

A cut of a text says which characters form lexemes and which blanks stand
before, between and after them.  A cut is lexical when every lexeme may stand
before the text that follows it.  The main results say that a text has at most
one lexical cut, and that scanning a text finds the lexemes of that cut, or
fails when there is none.
-/

namespace Calculator

/-- A lexeme with the blanks before it. -/
structure Piece where
  gap : List Char
  lexeme : Lexeme

/-- Lexemes with the blanks before, between and after them. -/
structure Cut where
  pieces : List Piece
  trailing : List Char

namespace Cut

/-- The text that is cut. -/
def text (cut : Cut) : List Char :=
  cut.pieces.flatMap (fun piece => piece.gap ++ piece.lexeme.spelling) ++
    cut.trailing

/-- The lexemes without the blanks. -/
def lexemes (cut : Cut) : List Lexeme := cut.pieces.map Piece.lexeme

@[simp]
theorem text_nil (trailing : List Char) : text ⟨[], trailing⟩ = trailing :=
  rfl

@[simp]
theorem text_cons (piece : Piece) (pieces : List Piece)
    (trailing : List Char) :
    text ⟨piece :: pieces, trailing⟩ =
      piece.gap ++ (piece.lexeme.spelling ++ text ⟨pieces, trailing⟩) := by
  simp [text]

@[simp]
theorem lexemes_nil (trailing : List Char) : lexemes ⟨[], trailing⟩ = [] :=
  rfl

@[simp]
theorem lexemes_cons (piece : Piece) (pieces : List Piece)
    (trailing : List Char) :
    lexemes ⟨piece :: pieces, trailing⟩ =
      piece.lexeme :: lexemes ⟨pieces, trailing⟩ :=
  rfl

/-- What stands between the lexemes is blank. -/
structure Spaced (cut : Cut) : Prop where
  gaps : ∀ piece ∈ cut.pieces, Blank piece.gap
  trailing : Blank cut.trailing

/-- Every lexeme may stand before the text that follows it. -/
structure Lexical (cut : Cut) : Prop extends cut.Spaced where
  stands : ∀ before piece after,
    cut.pieces = before ++ piece :: after →
      piece.lexeme.StandsBefore (text ⟨after, cut.trailing⟩)

theorem lexical_nil_iff {trailing : List Char} :
    Lexical ⟨[], trailing⟩ ↔ Blank trailing := by
  constructor
  · intro lexical
    exact lexical.trailing
  · intro blank
    exact ⟨⟨by simp, blank⟩, by simp⟩

theorem lexical_cons_iff {piece : Piece} {pieces : List Piece}
    {trailing : List Char} :
    Lexical ⟨piece :: pieces, trailing⟩ ↔
      Blank piece.gap ∧
        piece.lexeme.StandsBefore (text ⟨pieces, trailing⟩) ∧
          Lexical ⟨pieces, trailing⟩ := by
  constructor
  · intro lexical
    refine ⟨lexical.gaps piece (by simp), lexical.stands [] piece pieces rfl,
      ⟨fun other member => lexical.gaps other ?_, lexical.trailing⟩, ?_⟩
    · exact List.mem_cons_of_mem piece member
    · rintro before other after rfl
      exact lexical.stands (piece :: before) other after rfl
  · rintro ⟨gap, stands, lexical⟩
    refine ⟨⟨?_, lexical.trailing⟩, ?_⟩
    · intro other member
      rcases List.mem_cons.mp member with rfl | member
      · exact gap
      · exact lexical.gaps other member
    · rintro (_ | ⟨first, before⟩) other after same
      · obtain ⟨rfl, rfl⟩ := List.cons.inj same
        exact stands
      · obtain ⟨rfl, rest⟩ := List.cons.inj same
        exact lexical.stands before other after rest

/-! ## A text has one cut -/

/-- The blanks before a lexeme end where the lexeme starts. -/
theorem stops_isBlank_spelling {lexeme : Lexeme} {rest : List Char}
    (stands : lexeme.StandsBefore rest) :
    Stops Text.isBlank (lexeme.spelling ++ rest) := by
  obtain ⟨first, others, shape, notBlank⟩ :=
    Lexeme.exists_head_of_standsBefore stands
  rw [shape, List.cons_append, stops_cons]
  exact notBlank

/-- A text that is blank is not cut into lexemes. -/
theorem not_blank_text_cons {piece : Piece} {pieces : List Piece}
    {trailing : List Char}
    (lexical : Lexical ⟨piece :: pieces, trailing⟩) :
    ¬ Blank (text ⟨piece :: pieces, trailing⟩) := by
  obtain ⟨-, stands, -⟩ := lexical_cons_iff.mp lexical
  obtain ⟨first, others, shape, notBlank⟩ :=
    Lexeme.exists_head_of_standsBefore stands
  intro blank
  have isBlank := blank first (by simp [shape])
  rw [notBlank] at isBlank
  cases isBlank

/-- Two lexical cuts of one text start with the same piece, and leave the
same text. -/
theorem head_eq_of_text_eq {piece other : Piece}
    {pieces otherPieces : List Piece} {trailing otherTrailing : List Char}
    (lexical : Lexical ⟨piece :: pieces, trailing⟩)
    (otherLexical : Lexical ⟨other :: otherPieces, otherTrailing⟩)
    (same :
      text ⟨piece :: pieces, trailing⟩ =
        text ⟨other :: otherPieces, otherTrailing⟩) :
    piece = other ∧
      text ⟨pieces, trailing⟩ = text ⟨otherPieces, otherTrailing⟩ := by
  obtain ⟨gap, stands, -⟩ := lexical_cons_iff.mp lexical
  obtain ⟨otherGap, otherStands, -⟩ := lexical_cons_iff.mp otherLexical
  rw [text_cons, text_cons] at same
  have sameGap : piece.gap = other.gap := by
    rw [← takeWhile_append_of_stops gap (stops_isBlank_spelling stands),
      same, takeWhile_append_of_stops otherGap
        (stops_isBlank_spelling otherStands)]
  rw [sameGap] at same
  have sameRest := List.append_cancel_left same
  obtain ⟨head, others, shape, -⟩ :=
    Lexeme.exists_head_of_standsBefore stands
  have spelled :
      piece.lexeme.spelling ++ text ⟨pieces, trailing⟩ =
        head :: (others ++ text ⟨pieces, trailing⟩) := by
    rw [shape, List.cons_append]
  have isRead := Lexeme.read_of_standsBefore 0 spelled stands
  rw [sameRest] at spelled
  have otherRead := Lexeme.read_of_standsBefore 0 spelled otherStands
  rw [isRead] at otherRead
  obtain ⟨sameLexeme, sameText⟩ :=
    Prod.mk.inj (Except.ok.inj otherRead)
  refine ⟨?_, sameText⟩
  obtain ⟨gap, lexeme⟩ := piece
  obtain ⟨otherGap, otherLexeme⟩ := other
  cases sameGap
  cases sameLexeme
  rfl

/-- A text has at most one lexical cut. -/
theorem Lexical.unique {first second : Cut} (firstLexical : first.Lexical)
    (secondLexical : second.Lexical) (same : first.text = second.text) :
    first = second := by
  obtain ⟨pieces, trailing⟩ := first
  obtain ⟨otherPieces, otherTrailing⟩ := second
  induction pieces generalizing otherPieces with
  | nil =>
      cases otherPieces with
      | nil =>
          rw [text_nil, text_nil] at same
          rw [same]
      | cons other otherPieces =>
          have blank := lexical_nil_iff.mp firstLexical
          rw [text_nil] at same
          rw [same] at blank
          exact absurd blank (not_blank_text_cons secondLexical)
  | cons piece pieces ih =>
      cases otherPieces with
      | nil =>
          have blank := lexical_nil_iff.mp secondLexical
          rw [text_nil] at same
          rw [← same] at blank
          exact absurd blank (not_blank_text_cons firstLexical)
      | cons other otherPieces =>
          obtain ⟨rfl, sameText⟩ :=
            head_eq_of_text_eq firstLexical secondLexical same
          have samePieces := ih (lexical_cons_iff.mp firstLexical).2.2
            otherPieces (lexical_cons_iff.mp secondLexical).2.2 sameText
          obtain ⟨rfl, rfl⟩ := Cut.mk.inj samePieces
          rfl

/-! ## Scanning finds the cut -/

/-- Blanks are passed over. -/
theorem scanFrom_blank_append (index : Nat) {gap : List Char}
    (blank : Blank gap) (text : List Char) :
    Lexeme.scanFrom index (gap ++ text) =
      Lexeme.scanFrom (index + gap.length) text := by
  induction gap generalizing index with
  | nil => rfl
  | cons character gap ih =>
      have first := blank character (by simp)
      have others : Blank gap :=
        fun c member => blank c (List.mem_cons_of_mem character member)
      rw [List.cons_append, Lexeme.scanFrom, if_pos first,
        ih (index + 1) others, List.length_cons]
      congr 1
      omega

/-- A lexeme that is read is the first one that scanning finds. -/
theorem scanFrom_of_read {index : Nat} {first : Char}
    {text rest : List Char} {lexeme : Lexeme}
    (notBlank : Text.isBlank first = false)
    (isRead : Lexeme.read index first text = .ok (lexeme, rest)) :
    Lexeme.scanFrom index (first :: text) =
      (Lexeme.scanFrom (index + lexeme.spelling.length) rest).map
        (lexeme :: ·) := by
  rw [Lexeme.scanFrom, if_neg (by simp [notBlank])]
  split
  · next failed =>
      rw [isRead] at failed
      cases failed
  · next found =>
      rw [isRead] at found
      cases found
      rfl

/-- The lexemes of a lexical cut are found. -/
theorem Lexical.scanFrom_text {cut : Cut} (lexical : cut.Lexical)
    (index : Nat) : Lexeme.scanFrom index cut.text = .ok cut.lexemes := by
  obtain ⟨pieces, trailing⟩ := cut
  induction pieces generalizing index with
  | nil =>
      have blank := lexical_nil_iff.mp lexical
      have scanned := scanFrom_blank_append index blank []
      rw [List.append_nil] at scanned
      rw [text_nil, scanned, Lexeme.scanFrom, lexemes_nil]
  | cons piece pieces ih =>
      obtain ⟨gap, stands, rest⟩ := lexical_cons_iff.mp lexical
      obtain ⟨first, others, shape, notBlank⟩ :=
        Lexeme.exists_head_of_standsBefore stands
      have spelled :
          piece.lexeme.spelling ++ text ⟨pieces, trailing⟩ =
            first :: (others ++ text ⟨pieces, trailing⟩) := by
        rw [shape, List.cons_append]
      have isRead := Lexeme.read_of_standsBefore
        (index + piece.gap.length) spelled stands
      rw [text_cons, scanFrom_blank_append index gap, spelled,
        scanFrom_of_read notBlank isRead, ih _ rest, lexemes_cons]
      rfl

/-- What is found are the lexemes of a lexical cut. -/
theorem exists_lexical_of_scanFrom {index : Nat} {text : List Char}
    {lexemes : List Lexeme}
    (scanned : Lexeme.scanFrom index text = .ok lexemes) :
    ∃ cut : Cut,
      cut.Lexical ∧ cut.text = text ∧ cut.lexemes = lexemes := by
  induction index, text using Lexeme.scanFrom.induct
    generalizing lexemes with
  | case1 index =>
      rw [Lexeme.scanFrom] at scanned
      cases scanned
      exact ⟨⟨[], []⟩, lexical_nil_iff.mpr (by simp [Blank]), rfl, rfl⟩
  | case2 index first rest blank ih =>
      rw [Lexeme.scanFrom, if_pos blank] at scanned
      obtain ⟨⟨pieces, trailing⟩, lexical, rfl, rfl⟩ := ih scanned
      cases pieces with
      | nil =>
          refine ⟨⟨[], first :: trailing⟩, ?_, rfl, rfl⟩
          rw [lexical_nil_iff] at lexical ⊢
          exact List.forall_mem_cons.mpr ⟨blank, lexical⟩
      | cons piece pieces =>
          refine
            ⟨⟨⟨first :: piece.gap, piece.lexeme⟩ :: pieces, trailing⟩,
              ?_, by simp, rfl⟩
          rw [lexical_cons_iff] at lexical ⊢
          exact
            ⟨List.forall_mem_cons.mpr ⟨blank, lexical.1⟩, lexical.2⟩
  | case3 index first rest notBlank failure failed =>
      rw [Lexeme.scanFrom, if_neg notBlank] at scanned
      split at scanned
      · cases scanned
      · next found =>
          rw [failed] at found
          cases found
  | case4 index first rest notBlank lexeme remaining isRead ih =>
      have notBlank : Text.isBlank first = false := by
        simpa using notBlank
      rw [scanFrom_of_read notBlank isRead, Outcome.map_eq_ok_iff]
        at scanned
      obtain ⟨others, scanned, rfl⟩ := scanned
      obtain ⟨⟨pieces, trailing⟩, lexical, rfl, rfl⟩ := ih scanned
      obtain ⟨spelled, stands⟩ := Lexeme.read_eq_ok_iff.mp isRead
      refine ⟨⟨⟨[], lexeme⟩ :: pieces, trailing⟩, ?_, ?_, rfl⟩
      · rw [lexical_cons_iff]
        exact ⟨by simp [Blank], stands, lexical⟩
      · rw [text_cons, List.nil_append]
        exact spelled

/-- Scanning a text succeeds exactly when the text has a lexical cut, and
finds the lexemes of that cut. -/
theorem scan_eq_ok_iff {text : List Char} {lexemes : List Lexeme} :
    Lexeme.scan text = .ok lexemes ↔
      ∃ cut : Cut,
        cut.Lexical ∧ cut.text = text ∧ cut.lexemes = lexemes := by
  constructor
  · exact exists_lexical_of_scanFrom
  · rintro ⟨cut, lexical, rfl, rfl⟩
    exact lexical.scanFrom_text 0

end Cut

end Calculator

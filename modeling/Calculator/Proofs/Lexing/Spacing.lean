import Calculator.Expression.Value
import Calculator.Proofs.Lexing.Exchange
import Calculator.Proofs.Lexing.Tokens
import Mathlib.Data.List.Forall2

/-!
# Blanks between lexemes

Blanks do not change the meaning of an expression.  Where blanks may stand,
more of them may be put in: the lexemes, the tokens and the value stay as they
are.  And a run of blanks between two lexemes may be taken out, unless the
first lexeme could go on with the second: a numeral with a digit, a point or
the letter of an exponent, or a name with another name.
-/

namespace Calculator

/-- The first lexeme could go on with the second if no blank stood between
them. -/
inductive Lexeme.MayMerge : Lexeme → Lexeme → Prop
  /-- A numeral before a digit, a point or the letter of an exponent. -/
  | numeral (written : Numeral) (next : Lexeme) (first : Char)
      (head : next.spelling.head? = some first)
      (continues :
        first.isDigit = true ∨ first = '.' ∨ first = 'e') :
      MayMerge (.numeral written) next
  /-- A name before a name.  The name `log_` does not end with a letter. -/
  | names (operation next : Operation)
      (plain : operation ≠ .binary .logarithm) :
      MayMerge (.name operation) (.name next)

/-- The second piece has the lexeme of the first, after the same blanks or
more. -/
structure Piece.Widens (piece wide : Piece) : Prop where
  lexeme : wide.lexeme = piece.lexeme
  gap : piece.gap.Sublist wide.gap
  blank : Blank wide.gap

/-- The second cut has the lexemes of the first.  Blanks may have been put in
before, between and after them. -/
structure Cut.Widens (cut wide : Cut) : Prop where
  pieces : List.Forall₂ Piece.Widens cut.pieces wide.pieces
  trailing : cut.trailing.Sublist wide.trailing
  blank : Blank wide.trailing

/-- The texts have the same tokens, and the same value or error. -/
structure SameMeaning (text other : String) : Prop where
  tokens : tokenize other = tokenize text
  value : ∀ library, calculate library other = calculate library text

/-! ## Putting blanks in -/

/-- A text with more blanks at its beginning starts like the other one, or
with a blank. -/
theorem head_widened {gap wideGap rest other : List Char}
    (sublist : gap.Sublist wideGap) (blank : Blank wideGap)
    (same : other.head? = rest.head?) :
    (wideGap ++ other).head? = (gap ++ rest).head? ∨
      Stops goesOn (wideGap ++ other) := by
  cases wideGap with
  | nil =>
      obtain rfl := List.sublist_nil.mp sublist
      exact Or.inl same
  | cons first others =>
      exact Or.inr
        (stops_cons.mpr (not_goesOn_of_isBlank (blank first (by simp))))

theorem Cut.Widens.head_text {cut wide : Cut} (widens : cut.Widens wide)
    (lexical : cut.Lexical) :
    wide.text.head? = cut.text.head? ∨ Stops goesOn wide.text := by
  obtain ⟨pieces, trailing⟩ := cut
  obtain ⟨widePieces, wideTrailing⟩ := wide
  obtain ⟨all, sublist, blank⟩ := widens
  cases all with
  | nil =>
      have head := head_widened sublist blank (Eq.refl [].head?)
      simpa using head
  | @cons piece widePiece pieces widePieces first others =>
      obtain ⟨-, stands, -⟩ := lexical_cons_iff.mp lexical
      obtain ⟨head, tail, shape, -⟩ :=
        Lexeme.exists_head_of_standsBefore stands
      rw [text_cons, text_cons, first.lexeme]
      exact head_widened first.gap first.blank (by simp [shape])

/-- More blanks leave a cut lexical. -/
theorem Cut.Lexical.widen {cut wide : Cut} (lexical : cut.Lexical)
    (widens : cut.Widens wide) :
    wide.Lexical ∧ wide.lexemes = cut.lexemes := by
  obtain ⟨pieces, trailing⟩ := cut
  obtain ⟨widePieces, wideTrailing⟩ := wide
  obtain ⟨all, sublist, blank⟩ := widens
  change List.Forall₂ Piece.Widens pieces widePieces at all
  change trailing.Sublist wideTrailing at sublist
  change Blank wideTrailing at blank
  induction all with
  | nil => exact ⟨lexical_nil_iff.mpr blank, rfl⟩
  | @cons piece widePiece pieces widePieces first others ih =>
      obtain ⟨gap, stands, rest⟩ := lexical_cons_iff.mp lexical
      obtain ⟨wideRest, same⟩ := ih rest
      have widens : Widens ⟨pieces, trailing⟩ ⟨widePieces, wideTrailing⟩ :=
        ⟨others, sublist, blank⟩
      have opens : Opens (text ⟨pieces, trailing⟩) →
          Opens (text ⟨widePieces, wideTrailing⟩) := by
        rw [rest.opens_text_iff, wideRest.opens_text_iff, same]
        exact id
      refine ⟨lexical_cons_iff.mpr ⟨first.blank, ?_, wideRest⟩, ?_⟩
      · rw [first.lexeme]
        exact stands.exchange (widens.head_text rest) opens
      · rw [lexemes_cons, lexemes_cons, first.lexeme, same]

/-! ## Taking blanks out -/

/-- A lexeme that a name does not go on with has no lower-case letter in
front. -/
theorem Lexeme.stops_isLower_spelling {lexeme : Lexeme} {rest : List Char}
    (stands : lexeme.StandsBefore rest)
    (noName : ∀ operation, lexeme ≠ .name operation) :
    Stops Char.isLower (lexeme.spelling ++ rest) := by
  cases lexeme with
  | numeral written =>
      obtain ⟨first, found, starts⟩ := stands.1.exists_head
      obtain ⟨others, shape⟩ := List.head?_eq_some_iff.mp found
      rw [spelling, shape, List.cons_append, stops_cons, Bool.eq_false_iff]
      intro lower
      rw [not_startsWith_of_isLower lower] at starts
      cases starts
  | name operation => exact absurd rfl (noName operation)
  | mark sign => cases sign <;> exact stops_cons.mpr rfl
  | openBracket => exact stops_cons.mpr rfl
  | closeBracket => exact stops_cons.mpr rfl

/-- A name ends before a lexeme that is no name, also where no blank stands
between them. -/
theorem Lexeme.StandsBefore.name_closeUp {operation : Operation}
    {next : Lexeme} {gap rest : List Char} (blank : Blank gap)
    (stands : StandsBefore (gap ++ (next.spelling ++ rest))
      (.name operation))
    (nextStands : next.StandsBefore rest)
    (noName : ∀ other, next ≠ .name other) :
    StandsBefore (next.spelling ++ rest) (.name operation) := by
  obtain ⟨complete, bracket⟩ := stands
  have lower := stops_isLower_spelling nextStands noName
  cases operation with
  | constant named =>
      refine ⟨?_, by simp [Operation.arity]⟩
      have nonempty : named.name.toList ≠ [] := by
        cases named <;> decide
      have letters : named.name.toList.all Char.isLower = true := by
        cases named <;> decide
      have other : named.name.toList ≠ ['l', 'o', 'g'] := by
        cases named <;> decide
      exact .letters nonempty (List.all_eq_true.mp letters) lower
        fun same => absurd same other
  | unary function =>
      -- Only its bracket stands behind a function of one argument.
      have opens : Opens (next.spelling ++ rest) :=
        (opens_blank_append_iff blank).mp (bracket rfl)
      obtain ⟨first, others, shape, notBlank⟩ :=
        exists_head_of_standsBefore nextStands
      have stops : Stops goesOn (next.spelling ++ rest) := by
        rw [shape, List.cons_append] at opens ⊢
        obtain rfl := (opens_cons_iff notBlank).mp opens
        exact stops_cons.mpr rfl
      exact StandsBefore.exchange ⟨complete, bracket⟩ (Or.inr stops)
        (fun _ => opens)
  | binary operation =>
      refine ⟨?_, by simp [Operation.arity]⟩
      obtain ⟨first, found, isLower⟩ := exists_head_of_nameBefore complete
      cases operation with
      | logarithm => exact .extended rfl
      | _ =>
          obtain rfl := Option.some.inj found
          cases isLower

/-- Two lexemes that do not merge need no blank between them. -/
theorem Lexeme.StandsBefore.closeUp {lexeme next : Lexeme}
    {gap rest : List Char} (blank : Blank gap)
    (stands : lexeme.StandsBefore (gap ++ (next.spelling ++ rest)))
    (nextStands : next.StandsBefore rest)
    (apart : ¬ lexeme.MayMerge next) :
    lexeme.StandsBefore (next.spelling ++ rest) := by
  cases lexeme with
  | numeral written =>
      obtain ⟨literal, finite, -⟩ := stands
      obtain ⟨first, others, shape, -⟩ :=
        exists_head_of_standsBefore nextStands
      have ends : ¬(first.isDigit = true ∨ first = '.' ∨ first = 'e') :=
        fun continues =>
          apart (.numeral written next first (by simp [shape]) continues)
      simp only [not_or, Bool.not_eq_true] at ends
      obtain ⟨digit, point, letter⟩ := ends
      rw [shape, List.cons_append]
      refine ⟨literal, finite, ?_⟩
      constructor
      · exact stops_cons.mpr digit
      · exact fun _ => stops_cons.mpr (by simpa using point)
      · exact fun _ => stops_cons.mpr (by simpa using letter)
  | name operation =>
      by_cases isName : ∃ other, next = .name other
      · obtain ⟨other, rfl⟩ := isName
        obtain rfl : operation = .binary .logarithm := by
          by_contra plain
          exact apart (.names operation other plain)
        exact ⟨.extended rfl, by simp [Operation.arity]⟩
      · exact stands.name_closeUp blank nextStands
          (fun other same => isName ⟨other, same⟩)
  | mark sign => trivial
  | openBracket => trivial
  | closeBracket => trivial

/-- Blanks between lexemes that do not merge may be left out. -/
theorem Cut.Lexical.closeUp {before after : List Piece}
    {left right : Piece} {trailing : List Char}
    (lexical : Lexical ⟨before ++ left :: right :: after, trailing⟩)
    (apart : ¬ left.lexeme.MayMerge right.lexeme) :
    Lexical ⟨before ++ left :: ⟨[], right.lexeme⟩ :: after, trailing⟩ := by
  have old := lexical.of_append
  obtain ⟨leftGap, leftStands, others⟩ := lexical_cons_iff.mp old
  obtain ⟨rightGap, rightStands, rest⟩ := lexical_cons_iff.mp others
  rw [text_cons] at leftStands
  have new :
      Lexical ⟨left :: ⟨[], right.lexeme⟩ :: after, trailing⟩ := by
    refine lexical_cons_iff.mpr ⟨leftGap, ?_, lexical_cons_iff.mpr
      ⟨by simp [Blank], rightStands, rest⟩⟩
    rw [text_cons, List.nil_append]
    exact leftStands.closeUp rightGap rightStands apart
  obtain ⟨first, tail, shape, -⟩ :=
    Lexeme.exists_head_of_standsBefore leftStands
  refine Lexical.replace ⟨left :: right :: after, trailing⟩
    ⟨left :: ⟨[], right.lexeme⟩ :: after, trailing⟩ lexical new
    (Or.inl ?_) ?_
  · rw [text_cons left, text_cons left, shape]
    cases left.gap with
    | nil => rfl
    | cons head others => rfl
  · rw [old.opens_text_iff, new.opens_text_iff]
    exact id

/-! ## The meaning of a text -/

/-- Accepted cuts with the same lexemes have texts of the same meaning. -/
theorem Cut.Accepted.sameMeaning {cut other : Cut} (accepted : cut.Accepted)
    (lexical : other.Lexical) (same : other.lexemes = cut.lexemes) :
    SameMeaning (String.ofList cut.text) (String.ofList other.text) := by
  have tokens : tokenize (String.ofList other.text) =
      tokenize (String.ofList cut.text) := by
    have accepts : ∀ accepted : Cut, accepted.Accepted →
        tokenize (String.ofList accepted.text) =
          .ok (Lexeme.tokens false accepted.lexemes) :=
      fun accepted isAccepted => tokenize_eq_ok_iff.mpr
        ⟨accepted, by rw [String.toList_ofList], isAccepted, rfl⟩
    rw [accepts cut accepted, accepts other, same]
    exact ⟨lexical, same ▸ accepted.nonempty, same ▸ accepted.brackets⟩
  refine ⟨tokens, fun library => ?_⟩
  rw [calculate, calculate, tokens]

/--
Blanks do not change the meaning of an accepted text.  They may be put in
before, between and after its lexemes, and a run of them between two lexemes
that do not merge may be taken out; tokens and value, or the error, stay the
same.
-/
theorem sameMeaning_of_spacing (text : String) (tokens : List Token)
    (accepted : tokenize text = .ok tokens) :
    ∃ cut : Cut,
      (cut.text = text.toList ∧ cut.Lexical ∧
        ∀ other : Cut,
          other.text = text.toList → other.Lexical → other = cut) ∧
      (∀ wide : Cut,
        cut.Widens wide → SameMeaning text (String.ofList wide.text)) ∧
      ∀ before left right after,
        cut.pieces = before ++ left :: right :: after →
          ¬ left.lexeme.MayMerge right.lexeme →
            SameMeaning text (String.ofList
              (Cut.text ⟨before ++ left :: ⟨[], right.lexeme⟩ :: after,
                cut.trailing⟩)) := by
  obtain ⟨cut, same, isAccepted, rfl⟩ := tokenize_eq_ok_iff.mp accepted
  have spelled : String.ofList cut.text = text := by
    rw [same, String.ofList_toList]
  have lexical := isAccepted.toLexical
  rw [← spelled]
  refine ⟨cut, ⟨by rw [String.toList_ofList], lexical, ?_⟩, ?_, ?_⟩
  · intro other otherSame otherLexical
    rw [String.toList_ofList] at otherSame
    exact otherLexical.unique lexical otherSame
  · intro wide widens
    obtain ⟨wideLexical, lexemes⟩ := lexical.widen widens
    exact isAccepted.sameMeaning wideLexical lexemes
  · intro before left right after shape apart
    obtain ⟨pieces, trailing⟩ := cut
    obtain rfl : pieces = before ++ left :: right :: after := shape
    refine isAccepted.sameMeaning (lexical.closeUp apart) ?_
    simp [Cut.lexemes]

/-- The base of a logarithm may stand close to the name or apart from it, and
its bracket may do so too. -/
theorem sameMeaning_spaced_logarithm :
    tokenize "log_ e(8)" =
        .ok [.function (.binary .logarithm), .constant (.constant .e),
          .openBracket, .number 8, .closeBracket] ∧
      SameMeaning "log_ e(8)" "log_e(8)" ∧
        SameMeaning "log_ e(8)" " log_ e (8)\n" := by
  have accepted : tokenize "log_ e(8)" =
      .ok [.function (.binary .logarithm), .constant (.constant .e),
        .openBracket, .number 8, .closeBracket] := by
    decide +kernel
  have literal : (Numeral.mk ['8'] none none).Literal :=
    ⟨by simp, by simp, by simp, by simp⟩
  have finite : (Numeral.mk ['8'] none none).Finite :=
    (Numeral.inRange_iff_finite _).mp (by decide +kernel)
  obtain ⟨cut, ⟨same, lexical, unique⟩, widen, closeUp⟩ :=
    sameMeaning_of_spacing "log_ e(8)" _ accepted
  have blanks : ∀ {gap : List Char}, gap.all Text.isBlank = true →
      Blank gap := fun all => List.all_eq_true.mp all
  -- The cut of the text, with the blank before the base.
  obtain rfl := unique
    ⟨[⟨[], .name (.binary .logarithm)⟩, ⟨[' '], .name (.constant .e)⟩,
      ⟨[], .openBracket⟩, ⟨[], .numeral ⟨['8'], none, none⟩⟩,
      ⟨[], .closeBracket⟩], []⟩ rfl
    (Joined.lexical
      ⟨rfl, by simp [Lexeme.Joins, Lexeme.isSign], trivial,
        ⟨literal, finite, by simp [Lexeme.isSign]⟩, trivial, trivial⟩
      ⟨by simp [Blank, Text.isBlank, Text.blankRuns], blanks rfl⟩)
  refine ⟨accepted, ?_, ?_⟩
  · exact closeUp [] _ _ _ rfl (by rintro ⟨⟩; contradiction)
  · exact widen
      ⟨[⟨[' '], .name (.binary .logarithm)⟩,
        ⟨[' '], .name (.constant .e)⟩, ⟨[' '], .openBracket⟩,
        ⟨[], .numeral ⟨['8'], none, none⟩⟩, ⟨[], .closeBracket⟩], ['\n']⟩
      ⟨.cons ⟨rfl, by simp, blanks rfl⟩
        (.cons ⟨rfl, by simp, blanks rfl⟩
          (.cons ⟨rfl, by simp, blanks rfl⟩
            (.cons ⟨rfl, by simp, blanks rfl⟩
              (.cons ⟨rfl, by simp, blanks rfl⟩ .nil)))),
        by simp, blanks rfl⟩

end Calculator

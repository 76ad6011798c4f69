import Calculator.Proofs.Lexing.Joining

/-!
# Exchanging what follows a lexeme

Whether a lexeme may stand before a text depends on little of that text: on
the character with which it begins, and on whether an opening bracket is the
first thing in it that is not blank.  So a lexical cut stays lexical when its
end is replaced by lexemes that look the same from the left.

A bracket separates what stands on its two sides.  A lexical cut has a bracket
wherever its text has one; what follows the bracket may be exchanged for any
lexical cut, and what stands before it may be replaced by any lexical cut.
-/

namespace Calculator

/-! ## Exchanging what follows -/

/-- An opening bracket is the first thing in the text that is not blank. -/
def Opens (text : List Char) : Prop :=
  ∃ blanks after, Blank blanks ∧ text = blanks ++ '(' :: after

theorem opens_iff {text : List Char} :
    Opens text ↔ (text.dropWhile Text.isBlank).head? = some '(' :=
  Lexeme.head?_dropWhile_isBlank_eq_openBracket_iff.symm

theorem opens_blank_append_iff {gap rest : List Char} (blank : Blank gap) :
    Opens (gap ++ rest) ↔ Opens rest := by
  rw [opens_iff, opens_iff, List.dropWhile_append_of_pos blank]

/-- A text that does not begin with a blank opens where it begins with the
bracket. -/
theorem opens_cons_iff {first : Char} {rest : List Char}
    (notBlank : Text.isBlank first = false) :
    Opens (first :: rest) ↔ first = '(' := by
  rw [opens_iff, List.dropWhile_cons_of_neg (by simp [notBlank])]
  simp

theorem not_opens_of_blank {text : List Char} (blank : Blank text) :
    ¬ Opens text := by
  rintro ⟨blanks, after, -, rfl⟩
  have isBlank := blank '(' (by simp)
  cases isBlank

/-- The part of a text that is exchanged decides whether it opens only where
all before it is blank. -/
theorem Opens.append_of_imp {front rest other : List Char}
    (opens : Opens (front ++ rest)) (kept : Opens rest → Opens other) :
    Opens (front ++ other) := by
  by_cases blank : Blank front
  · rw [opens_blank_append_iff blank] at opens ⊢
    exact kept opens
  · have stopped : front.dropWhile Text.isBlank ≠ [] := by
      intro empty
      exact blank (List.dropWhile_eq_nil_iff.mp empty)
    obtain ⟨first, others, shape⟩ := List.exists_cons_of_ne_nil stopped
    rw [opens_iff, List.dropWhile_append, shape] at opens ⊢
    exact opens

theorem NameBefore.exchange {name rest other : List Char}
    (complete : NameBefore name rest)
    (stops : ∀ class_ : Char → Bool,
      (∀ c, class_ c = true → goesOn c = true) →
        Stops class_ rest → Stops class_ other) :
    NameBefore name other := by
  cases complete with
  | letters nonempty lower maximal plain =>
      refine .letters nonempty lower ?_ ?_
      · exact stops _ (fun _ => goesOn_of_isLower) maximal
      · exact fun isLog =>
          stops _ (fun _ => goesOn_of_extendsLog) (plain isLog)
  | extended extending => exact .extended extending

/-- A lexeme may stand before another text that begins like the first one, or
with a character that nothing goes on with, and that opens where the first one
does. -/
theorem Lexeme.StandsBefore.exchange {lexeme : Lexeme}
    {rest other : List Char} (stands : lexeme.StandsBefore rest)
    (head : other.head? = rest.head? ∨ Stops goesOn other)
    (opens : Opens rest → Opens other) :
    lexeme.StandsBefore other := by
  have stops : ∀ class_ : Char → Bool,
      (∀ c, class_ c = true → goesOn c = true) →
        Stops class_ rest → Stops class_ other := by
    intro class_ included stopped
    rcases head with same | outside
    · intro character first
      rw [same] at first
      exact stopped character first
    · exact outside.mono included
  cases lexeme with
  | numeral written =>
      obtain ⟨literal, finite, ends⟩ := stands
      refine ⟨literal, finite, ?_⟩
      constructor
      · exact stops _ (fun _ => goesOn_of_isDigit) ends.digit
      · exact fun plain =>
          stops _ (fun _ => goesOn_of_eq_point) (ends.point plain)
      · exact fun plain =>
          stops _ (fun _ => goesOn_of_eq_letter) (ends.letter plain)
  | name operation =>
      obtain ⟨complete, bracket⟩ := stands
      exact ⟨complete.exchange stops, fun single => opens (bracket single)⟩
  | mark sign => trivial
  | openBracket => trivial
  | closeBracket => trivial

/-- A sign may stand before any text. -/
theorem Lexeme.standsBefore_of_isSign {lexeme : Lexeme}
    (isSign : lexeme.isSign = true) (rest : List Char) :
    lexeme.StandsBefore rest := by
  cases lexeme with
  | numeral written => cases isSign
  | name operation => cases isSign
  | mark mark => trivial
  | openBracket => trivial
  | closeBracket => trivial

/-! ## Brackets in a text -/

/-- The lexemes that are brackets, with their characters. -/
inductive IsBracket : Lexeme → Char → Prop
  | opening : IsBracket .openBracket '('
  | closing : IsBracket .closeBracket ')'

namespace IsBracket

variable {bracket lexeme : Lexeme} {character : Char}

theorem spelling_eq (isBracket : IsBracket bracket character) :
    bracket.spelling = [character] := by
  cases isBracket <;> rfl

theorem not_isBlank (isBracket : IsBracket bracket character) :
    Text.isBlank character = false := by
  cases isBracket <;> rfl

theorem isSign (isBracket : IsBracket bracket character) :
    bracket.isSign = true := by
  cases isBracket <;> rfl

theorem standsBefore (isBracket : IsBracket bracket character)
    (rest : List Char) : bracket.StandsBefore rest :=
  Lexeme.standsBefore_of_isSign isBracket.isSign rest

end IsBracket

/-- A literal consists of digits, points, signs and the letter of an
exponent. -/
theorem Numeral.Literal.of_mem_spelling {numeral : Numeral}
    (literal : numeral.Literal) {character : Char}
    (member : character ∈ numeral.spelling) :
    character.isDigit = true ∨
      character ∈ ['.', 'e', '+', '-'] := by
  simp only [spelling, List.mem_append] at member
  rcases member with isWhole | isFraction | isExponent
  · exact Or.inl (literal.whole character isWhole)
  · cases found : numeral.fraction with
    | none => simp [found, fractionSpelling] at isFraction
    | some digits =>
        rw [found, fractionSpelling, List.mem_cons] at isFraction
        rcases isFraction with rfl | isDigit
        · exact Or.inr (by simp)
        · exact Or.inl ((literal.fraction digits found).2 _ isDigit)
  · cases found : numeral.exponent with
    | none => simp [found] at isExponent
    | some written =>
        simp only [found, Option.map_some, Option.getD_some,
          NumeralExponent.spelling, List.mem_cons, List.mem_append,
          List.mem_map] at isExponent
        rcases isExponent with rfl | ⟨sign, -, rfl⟩ | isDigit
        · exact Or.inr (by simp)
        · cases sign <;> exact Or.inr (by simp [ExponentSign.toChar])
        · exact Or.inl ((literal.exponent written found).2 _ isDigit)

theorem NameBefore.of_mem {name rest : List Char}
    (complete : NameBefore name rest) {character : Char}
    (member : character ∈ name) :
    character.isLower = true ∨ extendsLog character = true := by
  cases complete with
  | letters nonempty lower maximal plain =>
      exact Or.inl (lower character member)
  | extended extending =>
      simp only [List.mem_cons, List.not_mem_nil, or_false] at member
      rcases member with rfl | rfl | rfl | rfl
      · exact Or.inl rfl
      · exact Or.inl rfl
      · exact Or.inl rfl
      · exact Or.inr extending

/-- A bracket occurs in no lexeme but itself. -/
theorem Lexeme.StandsBefore.eq_of_mem_spelling {bracket lexeme : Lexeme}
    {character : Char} {rest : List Char}
    (stands : lexeme.StandsBefore rest)
    (isBracket : IsBracket bracket character)
    (member : character ∈ lexeme.spelling) :
    lexeme = bracket := by
  cases lexeme with
  | numeral written =>
      have known := stands.1.of_mem_spelling member
      cases isBracket <;> exact absurd known (by decide)
  | name operation =>
      have known := stands.1.of_mem member
      cases isBracket <;> exact absurd known (by decide)
  | mark sign =>
      rw [Lexeme.spelling, List.mem_singleton] at member
      cases isBracket <;> cases sign <;> cases member
  | openBracket =>
      cases isBracket with
      | opening => rfl
      | closing => exact absurd member (by decide)
  | closeBracket =>
      cases isBracket with
      | opening => exact absurd member (by decide)
      | closing => rfl

/-- What is not in the first part of a text is in the second. -/
theorem exists_eq_append_of_not_mem {first second before after : List Char}
    {character : Char} (outside : character ∉ first)
    (same : first ++ second = before ++ character :: after) :
    ∃ between,
      before = first ++ between ∧
        second = between ++ character :: after := by
  rcases List.append_eq_append_iff.mp same with
    ⟨between, rfl, rest⟩ | ⟨between, rfl, rest⟩
  · exact ⟨between, rfl, rest⟩
  · cases between with
    | nil => exact ⟨[], by simp, rest.symm⟩
    | cons head others =>
        obtain ⟨rfl, -⟩ := List.cons.inj rest
        exact absurd (by simp) outside

/-- A bracket after some characters is the first lexeme, or follows it. -/
theorem Lexeme.StandsBefore.cases_of_bracket {bracket lexeme : Lexeme}
    {character : Char} {rest before after : List Char}
    (stands : lexeme.StandsBefore rest)
    (isBracket : IsBracket bracket character)
    (same : lexeme.spelling ++ rest = before ++ character :: after) :
    (before = [] ∧ lexeme = bracket ∧ rest = after) ∨
      ∃ later,
        before = lexeme.spelling ++ later ∧
          rest = later ++ character :: after := by
  by_cases member : character ∈ lexeme.spelling
  · obtain rfl := stands.eq_of_mem_spelling isBracket member
    rw [isBracket.spelling_eq] at same ⊢
    cases before with
    | nil => exact Or.inl ⟨rfl, rfl, (List.cons.inj same).2⟩
    | cons first later =>
        obtain ⟨rfl, remaining⟩ := List.cons.inj same
        exact Or.inr ⟨later, rfl, remaining⟩
  · exact Or.inr (exists_eq_append_of_not_mem member same)

namespace Cut

theorem Lexical.opens_text_iff {cut : Cut} (lexical : cut.Lexical) :
    Opens cut.text ↔ cut.lexemes.head? = some .openBracket := by
  obtain ⟨pieces, trailing⟩ := cut
  cases pieces with
  | nil =>
      have shut := not_opens_of_blank (lexical_nil_iff.mp lexical)
      simp [shut]
  | cons piece pieces =>
      obtain ⟨gap, stands, -⟩ := lexical_cons_iff.mp lexical
      obtain ⟨first, others, shape, notBlank⟩ :=
        Lexeme.exists_head_of_standsBefore stands
      rw [text_cons, opens_blank_append_iff gap, shape, List.cons_append,
        opens_cons_iff notBlank, lexemes_cons, List.head?_cons,
        Option.some.injEq]
      constructor
      · rintro rfl
        exact stands.eq_of_mem_spelling .opening (by simp [shape])
      · intro opening
        rw [opening] at shape
        exact (List.cons.inj shape).1.symm

/-- The lexemes at the end of a lexical cut form a lexical cut. -/
theorem Lexical.of_append {before pieces : List Piece}
    {trailing : List Char}
    (lexical : Lexical ⟨before ++ pieces, trailing⟩) :
    Lexical ⟨pieces, trailing⟩ := by
  induction before with
  | nil => exact lexical
  | cons piece before ih => exact ih (lexical_cons_iff.mp lexical).2.2

/-- A cut stays lexical when the lexemes at its end are replaced by others that
look the same from the left. -/
theorem Lexical.replace {before : List Piece} (old new : Cut)
    (lexical : Lexical ⟨before ++ old.pieces, old.trailing⟩)
    (newLexical : new.Lexical)
    (head : new.text.head? = old.text.head? ∨ Stops goesOn new.text)
    (opens : Opens old.text → Opens new.text) :
    Lexical ⟨before ++ new.pieces, new.trailing⟩ := by
  induction before with
  | nil => exact newLexical
  | cons piece before ih =>
      rw [List.cons_append] at lexical ⊢
      obtain ⟨gap, stands, rest⟩ := lexical_cons_iff.mp lexical
      have split : ∀ cut : Cut,
          text ⟨before ++ cut.pieces, cut.trailing⟩ =
            text ⟨before, []⟩ ++ cut.text := by
        intro cut
        simp [text]
      refine lexical_cons_iff.mpr ⟨gap, stands.exchange ?_ ?_, ih rest⟩
      · rw [split new, split old]
        cases text ⟨before, []⟩ with
        | nil => exact head
        | cons first others => exact Or.inl rfl
      · rw [split new, split old]
        exact fun opened => opened.append_of_imp opens

/-! ## Cuts on both sides of a bracket -/

/-- A lexeme between two cuts; the blanks at the end of the first cut stand
before it. -/
def join (left : Cut) (lexeme : Lexeme) (right : Cut) : Cut :=
  ⟨left.pieces ++ ⟨left.trailing, lexeme⟩ :: right.pieces, right.trailing⟩

@[simp]
theorem text_join (left right : Cut) (lexeme : Lexeme) :
    (left.join lexeme right).text =
      left.text ++ (lexeme.spelling ++ right.text) := by
  simp [join, text]

@[simp]
theorem lexemes_join (left right : Cut) (lexeme : Lexeme) :
    (left.join lexeme right).lexemes =
      left.lexemes ++ lexeme :: right.lexemes := by
  simp [join, lexemes]

section

variable {left right : Cut} {bracket : Lexeme} {character : Char}

/-- What follows a lexeme of a lexical cut is a lexical cut. -/
theorem Lexical.of_join (lexical : (left.join bracket right).Lexical) :
    right.Lexical :=
  (lexical_cons_iff.mp lexical.of_append).2.2

/-- Where a text has a bracket, a lexical cut of it has one. -/
theorem Lexical.exists_join {cut : Cut} (lexical : cut.Lexical)
    (isBracket : IsBracket bracket character) {before after : List Char}
    (same : cut.text = before ++ character :: after) :
    ∃ left right : Cut,
      cut = left.join bracket right ∧
        left.text = before ∧ right.text = after := by
  obtain ⟨pieces, trailing⟩ := cut
  induction pieces generalizing before with
  | nil =>
      have blank := lexical_nil_iff.mp lexical character
        (by rw [text_nil] at same; simp [same])
      rw [isBracket.not_isBlank] at blank
      cases blank
  | cons piece pieces ih =>
      obtain ⟨gap, stands, rest⟩ := lexical_cons_iff.mp lexical
      have notInGap : character ∉ piece.gap := by
        intro member
        have blank := gap character member
        rw [isBracket.not_isBlank] at blank
        cases blank
      rw [text_cons] at same
      obtain ⟨between, rfl, afterGap⟩ :=
        exists_eq_append_of_not_mem notInGap same
      rcases stands.cases_of_bracket isBracket afterGap with
        ⟨rfl, isHere, rfl⟩ | ⟨later, rfl, remaining⟩
      · exact ⟨⟨[], piece.gap⟩, ⟨pieces, trailing⟩, by rw [join, ← isHere]; rfl,
          by simp, rfl⟩
      · obtain ⟨left, right, shape, rfl, rfl⟩ := ih rest remaining
        obtain ⟨rfl, rfl⟩ := Cut.mk.inj shape
        exact ⟨⟨piece :: left.pieces, left.trailing⟩, right, rfl,
          by simp, rfl⟩

/-- What follows a bracket of a lexical cut may be exchanged. -/
theorem Lexical.join_exchange {other : Cut}
    (lexical : (left.join bracket right).Lexical)
    (isBracket : IsBracket bracket character) (otherLexical : other.Lexical) :
    (left.join bracket other).Lexical := by
  have gap : Blank left.trailing :=
    lexical.gaps ⟨left.trailing, bracket⟩ (by simp [Cut.join])
  have bracketed : ∀ {cut : Cut}, cut.Lexical →
      Lexical ⟨⟨left.trailing, bracket⟩ :: cut.pieces, cut.trailing⟩ :=
    fun cutLexical => lexical_cons_iff.mpr
      ⟨gap, isBracket.standsBefore _, cutLexical⟩
  have old := bracketed lexical.of_join
  have new := bracketed otherLexical
  refine Lexical.replace
    ⟨⟨left.trailing, bracket⟩ :: right.pieces, right.trailing⟩ _
    lexical new (Or.inl ?_) ?_
  · rw [text_cons, text_cons, isBracket.spelling_eq]
    cases left.trailing with
    | nil => rfl
    | cons first others => rfl
  · rw [old.opens_text_iff, new.opens_text_iff]
    exact id

/-- A sign may follow a lexical cut. -/
theorem Lexical.join_sign (lexical : left.Lexical) {sign : Lexeme}
    (isSign : sign.isSign = true) (rightLexical : right.Lexical) :
    (left.join sign right).Lexical := by
  have gap := lexical.trailing
  have new : Lexical
      ⟨⟨left.trailing, sign⟩ :: right.pieces, right.trailing⟩ :=
    lexical_cons_iff.mpr
      ⟨gap, Lexeme.standsBefore_of_isSign isSign _, rightLexical⟩
  have old : Lexical ⟨left.pieces ++ [], left.trailing⟩ := by
    rw [List.append_nil]
    exact lexical
  refine Lexical.replace ⟨[], left.trailing⟩ _ old new ?_ ?_
  · rw [text_cons, text_nil]
    cases left.trailing with
    | nil => exact Or.inr (stops_goesOn_spelling isSign _)
    | cons first others => exact Or.inl rfl
  · exact fun opens => absurd opens (not_opens_of_blank gap)

/-- A bracket may follow a lexical cut. -/
theorem Lexical.join (lexical : left.Lexical)
    (isBracket : IsBracket bracket character) (rightLexical : right.Lexical) :
    (left.join bracket right).Lexical :=
  lexical.join_sign isBracket.isSign rightLexical

end

end Cut

end Calculator

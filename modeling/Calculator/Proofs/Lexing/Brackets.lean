import Calculator.Proofs.Conversion.Balance
import Calculator.Proofs.Conversion.Order
import Calculator.Proofs.Lexing.Exchange
import Calculator.Proofs.Lexing.Tokens

/-!
# The brackets of a text and of its tokens

A bracket in a text is a token of its own, and no other token has one in its
spelling.  So the brackets of the tokens are those of the text, in their
order, and whether brackets are properly nested can be seen from the
characters.
-/

namespace Calculator

/-- The bracket that a character is. -/
def bracketOf? : Char → Option Token
  | '(' => some .openBracket
  | ')' => some .closeBracket
  | _ => none

/-- The brackets of a text, as tokens. -/
def bracketsOf (text : List Char) : List Token := text.filterMap bracketOf?

/-- The character is blank or a bracket. -/
def BlankOrBracket (character : Char) : Prop :=
  Text.isBlank character = true ∨ character = '(' ∨ character = ')'

/-- The brackets of the text are properly nested: no prefix holds more
closing than opening brackets, and the text holds as many of each. -/
structure NestedText (text : List Char) : Prop where
  prefixes : ∀ count,
    (text.take count).count ')' ≤ (text.take count).count '('
  total : text.count '(' = text.count ')'

/-! ## Rows of brackets -/

@[simp]
theorem bracketsOf_nil : bracketsOf [] = [] := rfl

@[simp]
theorem bracketsOf_append (first second : List Char) :
    bracketsOf (first ++ second) = bracketsOf first ++ bracketsOf second :=
  List.filterMap_append

theorem bracketOf?_eq_some_openBracket_iff {character : Char} :
    bracketOf? character = some .openBracket ↔ character = '(' := by
  unfold bracketOf?
  split <;> simp_all

theorem bracketOf?_eq_some_closeBracket_iff {character : Char} :
    bracketOf? character = some .closeBracket ↔ character = ')' := by
  unfold bracketOf?
  split <;> simp_all

theorem bracketOf?_eq_none_iff {character : Char} :
    bracketOf? character = none ↔ character ≠ '(' ∧ character ≠ ')' := by
  unfold bracketOf?
  split <;> simp_all

theorem bracketOf?_of_isBlank {character : Char}
    (blank : Text.isBlank character = true) :
    bracketOf? character = none := by
  rw [bracketOf?_eq_none_iff]
  constructor <;> rintro rfl <;> cases blank

theorem bracketsOf_eq_nil_of_blank {text : List Char}
    (blank : Blank text) : bracketsOf text = [] :=
  List.filterMap_eq_nil_iff.mpr fun character member =>
    bracketOf?_of_isBlank (blank character member)

/-- Blanks can be left out. -/
@[simp]
theorem bracketsOf_filter_not_isBlank (text : List Char) :
    bracketsOf (text.filter fun character => !Text.isBlank character) =
      bracketsOf text := by
  induction text with
  | nil => rfl
  | cons character text ih =>
      by_cases blank : Text.isBlank character = true
      · simpa [bracketsOf, blank, bracketOf?_of_isBlank blank] using ih
      · simp only [bracketsOf] at ih
        simp [bracketsOf, blank, List.filterMap_cons, ih]

/-- A bracket that only one character is occurs as often as the character. -/
theorem count_bracketsOf {bracket : Token} {character : Char}
    (only : ∀ other, bracketOf? other = some bracket ↔ other = character)
    (text : List Char) :
    (bracketsOf text).count bracket = text.count character := by
  rw [bracketsOf, List.count, List.countP_filterMap, List.count]
  refine List.countP_congr fun other _ => ?_
  rw [beq_iff_eq, ← only other]
  cases bracketOf? other <;> simp

@[simp]
theorem count_openBracket_bracketsOf (text : List Char) :
    (bracketsOf text).count .openBracket = text.count '(' :=
  count_bracketsOf (fun _ => bracketOf?_eq_some_openBracket_iff) text

@[simp]
theorem count_closeBracket_bracketsOf (text : List Char) :
    (bracketsOf text).count .closeBracket = text.count ')' :=
  count_bracketsOf (fun _ => bracketOf?_eq_some_closeBracket_iff) text

/-- The prefixes of what is kept of a row are what is kept of its
prefixes. -/
theorem exists_take_filterMap_iff {α β : Type} (keep : α → Option β)
    (row : List α) (holds : List β → Prop) :
    (∃ count, holds ((row.filterMap keep).take count)) ↔
      ∃ count, holds ((row.take count).filterMap keep) := by
  constructor
  · rintro ⟨count, found⟩
    have parts := List.take_append_drop count (row.filterMap keep)
    obtain ⟨front, back, rfl, kept, -⟩ :=
      List.filterMap_eq_append_iff.mp parts.symm
    refine ⟨front.length, ?_⟩
    rwa [List.take_left, kept]
  · rintro ⟨count, found⟩
    have parts := congrArg (List.filterMap keep)
      (List.take_append_drop count row)
    rw [List.filterMap_append] at parts
    refine ⟨((row.take count).filterMap keep).length, ?_⟩
    rwa [← parts, List.take_left]

theorem exists_take_bracketsOf_iff (text : List Char) :
    (∃ count,
        ((bracketsOf text).take count).count .openBracket <
          ((bracketsOf text).take count).count .closeBracket) ↔
      ∃ count,
        (text.take count).count '(' < (text.take count).count ')' := by
  have prefixes :
      (∃ count,
          ((bracketsOf text).take count).count .openBracket <
            ((bracketsOf text).take count).count .closeBracket) ↔
        ∃ count,
          (bracketsOf (text.take count)).count .openBracket <
            (bracketsOf (text.take count)).count .closeBracket :=
    exists_take_filterMap_iff bracketOf? text fun row =>
      row.count .openBracket < row.count .closeBracket
  simpa using prefixes

theorem nested_bracketsOf_iff (text : List Char) :
    Nested (bracketsOf text) ↔ NestedText text := by
  have prefixes := not_congr (exists_take_bracketsOf_iff text)
  simp only [not_exists, Nat.not_lt] at prefixes
  constructor
  · rintro ⟨within, total⟩
    exact ⟨prefixes.mp within, by simpa using total⟩
  · rintro ⟨within, total⟩
    exact ⟨prefixes.mpr within, by simpa using total⟩

/-! ## The brackets of tokens -/

theorem Lexeme.tokens_eq_nil_iff {afterOperand : Bool}
    {lexemes : List Lexeme} :
    tokens afterOperand lexemes = [] ↔ lexemes = [] := by
  cases lexemes <;> simp

theorem count_filter_isBracket (bracket : Token)
    (isBracket : bracket.isBracket = true) (tokens : List Token) :
    (tokens.filter Token.isBracket).count bracket =
      tokens.count bracket :=
  List.count_filter isBracket

theorem exists_take_filter_isBracket_iff (tokens : List Token) :
    (∃ count,
        ((tokens.filter Token.isBracket).take count).count .openBracket <
          ((tokens.filter Token.isBracket).take count).count
            .closeBracket) ↔
      ∃ count,
        (tokens.take count).count .openBracket <
          (tokens.take count).count .closeBracket := by
  have prefixes := exists_take_filterMap_iff
    (Option.guard (Token.isBracket ·)) tokens fun row =>
      row.count .openBracket < row.count .closeBracket
  simp only [List.filterMap_eq_filter] at prefixes
  simpa only [count_filter_isBracket .openBracket rfl,
    count_filter_isBracket .closeBracket rfl] using prefixes

/-- No lexeme but a bracket has a bracket in its spelling. -/
theorem Lexeme.StandsBefore.bracketsOf_spelling {lexeme : Lexeme}
    {rest : List Char} (stands : lexeme.StandsBefore rest)
    (afterOperand : Bool) :
    bracketsOf lexeme.spelling =
      [lexeme.token afterOperand].filter Token.isBracket := by
  by_cases opening : lexeme = .openBracket
  · subst opening
    rfl
  by_cases closing : lexeme = .closeBracket
  · subst closing
    rfl
  have noBracket : (lexeme.token afterOperand).isBracket = false := by
    cases denoted : lexeme.token afterOperand with
    | number value => rfl
    | symbol used => rfl
    | openBracket => exact absurd (token_eq_openBracket_iff.mp denoted) opening
    | closeBracket =>
        exact absurd (token_eq_closeBracket_iff.mp denoted) closing
  rw [List.filter_cons_of_neg (by simp [noBracket]), List.filter_nil]
  refine List.filterMap_eq_nil_iff.mpr fun character member => ?_
  rw [bracketOf?_eq_none_iff]
  constructor
  · rintro rfl
    exact opening (stands.eq_of_mem_spelling .opening member)
  · rintro rfl
    exact closing (stands.eq_of_mem_spelling .closing member)

/-- A token is a bracket if there are only brackets and blanks in the spelling
of its lexeme. -/
theorem Lexeme.StandsBefore.isBracket_token_iff {lexeme : Lexeme}
    {rest : List Char} (stands : lexeme.StandsBefore rest)
    (afterOperand : Bool) :
    (lexeme.token afterOperand).isBracket = true ↔
      ∀ character ∈ lexeme.spelling, BlankOrBracket character := by
  constructor
  · intro isBracket
    cases denoted : lexeme.token afterOperand with
    | number value => simp [denoted, Token.isBracket] at isBracket
    | symbol used => simp [denoted, Token.isBracket] at isBracket
    | openBracket =>
        obtain rfl := token_eq_openBracket_iff.mp denoted
        simp [spelling, BlankOrBracket]
    | closeBracket =>
        obtain rfl := token_eq_closeBracket_iff.mp denoted
        simp [spelling, BlankOrBracket]
  · intro only
    obtain ⟨first, others, shape, notBlank⟩ :=
      exists_head_of_standsBefore stands
    have member : first ∈ lexeme.spelling := by simp [shape]
    rcases only first member with blank | rfl | rfl
    · rw [notBlank] at blank
      cases blank
    · rw [stands.eq_of_mem_spelling .opening member]
      rfl
    · rw [stands.eq_of_mem_spelling .closing member]
      rfl

namespace Cut

/-- The brackets of a text are those of its tokens, in the same order. -/
theorem Lexical.bracketsOf_text {cut : Cut} (lexical : cut.Lexical)
    (afterOperand : Bool) :
    bracketsOf cut.text =
      (Lexeme.tokens afterOperand cut.lexemes).filter Token.isBracket := by
  obtain ⟨pieces, trailing⟩ := cut
  induction pieces generalizing afterOperand with
  | nil => exact bracketsOf_eq_nil_of_blank (lexical_nil_iff.mp lexical)
  | cons piece pieces ih =>
      obtain ⟨gap, stands, rest⟩ := lexical_cons_iff.mp lexical
      rw [text_cons, bracketsOf_append, bracketsOf_append,
        bracketsOf_eq_nil_of_blank gap, List.nil_append,
        stands.bracketsOf_spelling afterOperand,
        ih piece.lexeme.endsOperand rest, ← List.filter_append]
      rfl

variable {cut : Cut}

theorem Lexical.count_openBracket (lexical : cut.Lexical) :
    (Lexeme.tokens false cut.lexemes).count .openBracket =
      cut.text.count '(' := by
  rw [← count_openBracket_bracketsOf, lexical.bracketsOf_text false,
    count_filter_isBracket _ rfl]

theorem Lexical.count_closeBracket (lexical : cut.Lexical) :
    (Lexeme.tokens false cut.lexemes).count .closeBracket =
      cut.text.count ')' := by
  rw [← count_closeBracket_bracketsOf, lexical.bracketsOf_text false,
    count_filter_isBracket _ rfl]

/-- A bracket is closed too early in the tokens exactly where it is in the
text. -/
theorem Lexical.exists_take_tokens_iff (lexical : cut.Lexical) :
    (∃ count,
        ((Lexeme.tokens false cut.lexemes).take count).count .openBracket <
          ((Lexeme.tokens false cut.lexemes).take count).count
            .closeBracket) ↔
      ∃ count,
        (cut.text.take count).count '(' <
          (cut.text.take count).count ')' := by
  rw [← exists_take_bracketsOf_iff, lexical.bracketsOf_text false,
    exists_take_filter_isBracket_iff]

/-- There are no lexemes in blank texts, and in no others. -/
theorem Lexical.lexemes_eq_nil_iff (lexical : cut.Lexical) :
    cut.lexemes = [] ↔ Blank cut.text := by
  obtain ⟨pieces, trailing⟩ := cut
  cases pieces with
  | nil => simpa using lexical_nil_iff.mp lexical
  | cons piece pieces => simpa using not_blank_text_cons lexical

/-- There are only brackets among the tokens if there are only brackets and
blanks in the text. -/
theorem Lexical.forall_isBracket_iff (lexical : cut.Lexical)
    (afterOperand : Bool) :
    (∀ token ∈ Lexeme.tokens afterOperand cut.lexemes,
        token.isBracket = true) ↔
      ∀ character ∈ cut.text, BlankOrBracket character := by
  obtain ⟨pieces, trailing⟩ := cut
  induction pieces generalizing afterOperand with
  | nil =>
      have blank := lexical_nil_iff.mp lexical
      simp only [lexemes_nil, Lexeme.tokens_nil, List.not_mem_nil,
        false_implies, implies_true, text_nil, true_iff]
      exact fun character member => Or.inl (blank character member)
  | cons piece pieces ih =>
      obtain ⟨gap, stands, rest⟩ := lexical_cons_iff.mp lexical
      have gaps : ∀ character ∈ piece.gap, BlankOrBracket character :=
        fun character member => Or.inl (gap character member)
      rw [lexemes_cons, Lexeme.tokens_cons, List.forall_mem_cons,
        stands.isBracket_token_iff, ih piece.lexeme.endsOperand rest,
        text_cons, List.forall_mem_append, List.forall_mem_append]
      exact ⟨fun both => ⟨gaps, both⟩, And.right⟩

end Cut

/-! ## Texts of blanks and brackets -/

/-- Brackets and blanks are always read. -/
theorem Lexeme.exists_scanFrom_eq_ok (index : Nat) {text : List Char}
    (only : ∀ character ∈ text, BlankOrBracket character) :
    ∃ lexemes, scanFrom index text = .ok lexemes := by
  induction text generalizing index with
  | nil =>
      rw [scanFrom]
      exact ⟨[], rfl⟩
  | cons first text ih =>
      obtain ⟨isFirst, others⟩ := List.forall_mem_cons.mp only
      rcases isFirst with blank | rfl | rfl
      · rw [scanFrom, if_pos blank]
        exact ih (index + 1) others
      · obtain ⟨lexemes, scanned⟩ := ih (index + 1) others
        have isRead : read index '(' text = .ok (.openBracket, text) := rfl
        rw [Cut.scanFrom_of_read rfl isRead]
        exact ⟨_, congrArg (Except.map _) scanned⟩
      · obtain ⟨lexemes, scanned⟩ := ih (index + 1) others
        have isRead : read index ')' text = .ok (.closeBracket, text) := rfl
        rw [Cut.scanFrom_of_read rfl isRead]
        exact ⟨_, congrArg (Except.map _) scanned⟩

end Calculator

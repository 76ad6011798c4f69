import Calculator.Proofs.Binary64.Sign
import Calculator.Proofs.Decimal.Layout
import Calculator.Proofs.Lexing.Exchange
import Calculator.Proofs.Lexing.Tokens

/-!
# Printed tokens are scanned again

Tokens are printed with single spaces between them.  The printed text is cut
into the lexemes of the original text, except that a numeral is spelled anew:
as the closest shortest decimal of its float, in positional notation.  Since
the new literal denotes the same float, the tokens are the same.

The one token that is not printed as it is written is the negation, whose name
is not a minus sign.
-/

namespace Calculator

/-- The lexeme spelled anew: a numeral may become any other literal of the same
float. -/
inductive Lexeme.Respells : Lexeme → Lexeme → Prop
  | numeral {written other : Numeral} (literal : other.Literal)
      (same : other.toFloat = written.toFloat) :
      Respells (.numeral written) (.numeral other)
  | same (lexeme : Lexeme) : Respells lexeme lexeme

namespace Lexeme.Respells

variable {old new : Lexeme}

theorem token_eq (respells : old.Respells new) (afterOperand : Bool) :
    new.token afterOperand = old.token afterOperand := by
  cases respells with
  | numeral literal same => rw [token, token, same]
  | same lexeme => rfl

theorem endsOperand_eq (respells : old.Respells new) :
    new.endsOperand = old.endsOperand := by
  cases respells <;> rfl

theorem eq_openBracket_iff (respells : old.Respells new) :
    new = .openBracket ↔ old = .openBracket := by
  cases respells with
  | numeral literal same => simp
  | same lexeme => rfl

theorem head_eq_openBracket {before after : List Lexeme}
    (respelled : List.Forall₂ Respells before after)
    (opening : before.head? = some .openBracket) :
    after.head? = some .openBracket := by
  cases respelled with
  | nil => exact opening
  | cons first _ =>
      rw [List.head?_cons, Option.some.injEq] at opening ⊢
      exact first.eq_openBracket_iff.mpr opening

theorem tokens_eq {before after : List Lexeme}
    (respelled : List.Forall₂ Respells before after) (afterOperand : Bool) :
    tokens afterOperand after = tokens afterOperand before := by
  induction respelled generalizing afterOperand with
  | nil => rfl
  | cons first others ih =>
      rw [tokens_cons, tokens_cons, first.token_eq, first.endsOperand_eq,
        ih]

/-- Where a lexeme may stand, it may stand spelled anew before a blank or the
end of the text. -/
theorem standsBefore (respells : old.Respells new) {rest other : List Char}
    (stands : old.StandsBefore rest) (stops : Stops goesOn other)
    (opens : Opens rest → Opens other) :
    new.StandsBefore other := by
  have moved := stands.exchange (Or.inr stops) opens
  cases respells with
  | numeral literal same =>
      obtain ⟨-, ⟨rank, finite⟩, -⟩ := moved
      exact ⟨literal, ⟨rank, same ▸ finite⟩, .of_stops stops⟩
  | same lexeme => exact moved

end Lexeme.Respells

/-! ## Lexemes with single spaces between them -/

namespace Cut

/-- Lexemes with a space before each of them. -/
def spaced (lexemes : List Lexeme) : Cut :=
  ⟨lexemes.map (Piece.mk [' ']), []⟩

/-- Lexemes with a space between each two of them. -/
def separated : List Lexeme → Cut
  | [] => ⟨[], []⟩
  | first :: rest => ⟨⟨[], first⟩ :: (spaced rest).pieces, []⟩

@[simp]
theorem lexemes_spaced (lexemes : List Lexeme) :
    (spaced lexemes).lexemes = lexemes := by
  simp [spaced, Cut.lexemes, Function.comp_def]

@[simp]
theorem lexemes_separated (lexemes : List Lexeme) :
    (separated lexemes).lexemes = lexemes := by
  cases lexemes with
  | nil => rfl
  | cons first rest => exact congrArg (first :: ·) (lexemes_spaced rest)

theorem text_separated (lexemes : List Lexeme) :
    (separated lexemes).text =
      [' '].intercalate (lexemes.map Lexeme.spelling) := by
  match lexemes with
  | [] => rfl
  | [only] => simp [separated, spaced]
  | first :: second :: rest =>
      have others := text_separated (second :: rest)
      simp only [separated, spaced, text_cons, List.map_cons,
        List.nil_append] at others ⊢
      rw [others]
      simp

theorem stops_goesOn_spaced (lexemes : List Lexeme) :
    Stops goesOn (spaced lexemes).text := by
  cases lexemes with
  | nil => exact stops_nil _
  | cons first rest => exact stops_cons.mpr rfl

/-- Lexemes of a lexical cut, spelled anew, form one with spaces before
them. -/
theorem Lexical.spaced_of_respells {cut : Cut} {lexemes : List Lexeme}
    (lexical : cut.Lexical)
    (respelled : List.Forall₂ Lexeme.Respells cut.lexemes lexemes) :
    (spaced lexemes).Lexical := by
  obtain ⟨pieces, trailing⟩ := cut
  induction pieces generalizing lexemes with
  | nil =>
      obtain rfl := List.forall₂_nil_left_iff.mp respelled
      exact lexical_nil_iff.mpr (by simp [Blank])
  | cons piece pieces ih =>
      obtain ⟨gap, stands, rest⟩ := lexical_cons_iff.mp lexical
      obtain ⟨new, others, first, remaining, rfl⟩ :=
        List.forall₂_cons_left_iff.mp respelled
      have after := ih rest remaining
      refine lexical_cons_iff.mpr
        ⟨by simp [Blank, Text.isBlank, Text.blankRuns], ?_, after⟩
      refine first.standsBefore stands (stops_goesOn_spaced others) ?_
      rw [rest.opens_text_iff]
      intro opening
      refine after.opens_text_iff.mpr ?_
      rw [lexemes_spaced]
      exact Lexeme.Respells.head_eq_openBracket remaining opening

theorem Lexical.separated_of_respells {cut : Cut} {lexemes : List Lexeme}
    (lexical : cut.Lexical)
    (respelled : List.Forall₂ Lexeme.Respells cut.lexemes lexemes) :
    (separated lexemes).Lexical := by
  have after := lexical.spaced_of_respells respelled
  cases lexemes with
  | nil => exact after
  | cons first rest =>
      obtain ⟨-, stands, others⟩ := lexical_cons_iff.mp after
      exact lexical_cons_iff.mpr ⟨by simp [Blank], stands, others⟩

end Cut

/-! ## Printing -/

/-- A token is printed as its lexeme is spelled, a numeral as the closest
shortest decimal of its float. -/
theorem Lexeme.StandsBefore.exists_respells {lexeme : Lexeme}
    {rest : List Char} (stands : lexeme.StandsBefore rest)
    (afterOperand : Bool)
    (plain : lexeme.token afterOperand ≠ .operator (.unary .negate)) :
    ∃ new : Lexeme,
      lexeme.Respells new ∧
        (lexeme.token afterOperand).text.toList = new.spelling := by
  cases lexeme with
  | numeral written =>
      obtain ⟨-, ⟨rank, finite⟩, -⟩ := stands
      have bound := Binary64.lt_of_ofFloat finite
      obtain ⟨other, spelled, literal, same⟩ :=
        (Decimal.spelledBy_positional _).exists_toFloat_eq
          (Decimal.roundsTo_closest rank) bound
      refine ⟨.numeral other, .numeral literal ?_, ?_⟩
      · rw [same, Binary64.eq_signed_of_ofFloat finite]
      · rw [token, Token.text, Decimal.plain, finite, spelling, spelled]
        simp [Decimal.signText]
  | name operation =>
      refine ⟨_, .same _, ?_⟩
      cases operation <;> rfl
  | mark sign =>
      refine ⟨_, .same _, ?_⟩
      cases sign with
      | minus =>
          cases afterOperand with
          | true => rfl
          | false => exact absurd rfl plain
      | _ => cases afterOperand <;> rfl
  | openBracket => exact ⟨_, .same _, by cases afterOperand <;> rfl⟩
  | closeBracket => exact ⟨_, .same _, by cases afterOperand <;> rfl⟩

/-- The tokens of a lexical cut without a negation are printed as its lexemes,
spelled anew. -/
theorem Cut.Lexical.exists_respells {cut : Cut} (lexical : cut.Lexical)
    (afterOperand : Bool)
    (plain : Token.operator (.unary .negate) ∉
      Lexeme.tokens afterOperand cut.lexemes) :
    ∃ lexemes : List Lexeme,
      List.Forall₂ Lexeme.Respells cut.lexemes lexemes ∧
        (Lexeme.tokens afterOperand cut.lexemes).map
            (fun token => token.text.toList) =
          lexemes.map Lexeme.spelling := by
  obtain ⟨pieces, trailing⟩ := cut
  induction pieces generalizing afterOperand with
  | nil => exact ⟨[], .nil, rfl⟩
  | cons piece pieces ih =>
      obtain ⟨-, stands, rest⟩ := lexical_cons_iff.mp lexical
      rw [lexemes_cons, Lexeme.tokens_cons, List.mem_cons, not_or] at plain
      obtain ⟨first, respells, spelled⟩ :=
        stands.exists_respells afterOperand (Ne.symm plain.1)
      obtain ⟨others, respelled, same⟩ := ih _ rest plain.2
      refine ⟨first :: others, .cons respells respelled, ?_⟩
      rw [lexemes_cons, Lexeme.tokens_cons, List.map_cons, List.map_cons,
        spelled, same]

/-- Tokens without a negation are scanned again when they are printed, every
number as the same float. -/
theorem tokenize_textOf (text : String) (tokens : List Token)
    (scanned : tokenize text = .ok tokens)
    (plain : Token.operator (.unary .negate) ∉ tokens) :
    tokenize (Token.textOf tokens) = .ok tokens := by
  obtain ⟨cut, -, accepted, rfl⟩ := tokenize_eq_ok_iff.mp scanned
  obtain ⟨lexemes, respelled, printed⟩ :=
    accepted.toLexical.exists_respells false plain
  have same := Lexeme.Respells.tokens_eq respelled false
  have count : ∀ {token : Token} {lexeme : Lexeme},
      (∀ (other : Lexeme) (afterOperand : Bool),
        other.token afterOperand = token ↔ other = lexeme) →
          lexemes.count lexeme = cut.lexemes.count lexeme := by
    intro token lexeme denotes
    rw [← count_tokens denotes false, same, count_tokens denotes]
  refine tokenize_eq_ok_iff.mpr ⟨Cut.separated lexemes, ?_,
    ⟨accepted.toLexical.separated_of_respells respelled, ?_, ?_⟩, ?_⟩
  · rw [Cut.text_separated, ← printed, Token.textOf,
      String.toList_intercalate, List.map_map]
    rfl
  · rw [Cut.lexemes_separated]
    rintro rfl
    exact accepted.nonempty (List.forall₂_nil_right_iff.mp respelled)
  · rw [Cut.lexemes_separated, count fun _ _ => token_eq_openBracket_iff,
      count fun _ _ => token_eq_closeBracket_iff]
    exact accepted.brackets
  · rw [Cut.lexemes_separated, same]

/-- The name of the logarithm is separated from its base, and both brackets of
a function stay behind its name. -/
theorem tokenize_textOf_functions :
    tokenize
        (Token.textOf
          [.function (.binary .logarithm), .number 2, .openBracket,
            .number 0.5, .closeBracket, .operator (.binary .subtract),
            .function (.unary .cosec), .openBracket, .number 1e-7,
            .closeBracket, .operator (.unary .factorial)]) =
      .ok
        [.function (.binary .logarithm), .number 2, .openBracket,
          .number 0.5, .closeBracket, .operator (.binary .subtract),
          .function (.unary .cosec), .openBracket, .number 1e-7,
          .closeBracket, .operator (.unary .factorial)] :=
  tokenize_textOf "log_ 2(.5)-cosec(1e-7)!" _ (by decide +kernel)
    (by simp)

end Calculator

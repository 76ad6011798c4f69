import Calculator.Proofs.Lexing.Exchange
import Calculator.Proofs.Lexing.Tokens

/-!
# Tokens that are written

The tokens of a text are not arbitrary ones.  The role of each is that in
which its operation is written: constants are used as constants, marks as
operators, and of the operations on two numbers only the logarithm is used as
a function.  And a function of one argument is followed by its bracket.
-/

namespace Calculator

/-- A token that a lexeme can denote. -/
inductive Token.Written : Token → Prop
  | number (value : Float) : Written (.number value)
  | constant (named : Constant) : Written (.constant (.constant named))
  | function (operation : UnaryOperation) :
      Written (.function (.unary operation))
  | logarithm : Written (.function (.binary .logarithm))
  | sign (operation : BinaryOperation) (between : operation ≠ .logarithm) :
      Written (.operator (.binary operation))
  | negation : Written (.operator (.unary .negate))
  | factorial : Written (.operator (.unary .factorial))
  | openBracket : Written .openBracket
  | closeBracket : Written .closeBracket

/-- A row of tokens that a text can have. -/
structure WrittenRow (tokens : List Token) : Prop where
  written : ∀ token ∈ tokens, token.Written
  bracket : ∀ before operation after,
    tokens = before ++ .function (.unary operation) :: after →
      ∃ rest, after = .openBracket :: rest

namespace WrittenRow

variable {token : Token} {rest : List Token}

theorem head (row : WrittenRow (token :: rest)) : token.Written :=
  row.written token List.mem_cons_self

theorem opens (row : WrittenRow (token :: rest))
    (operation : UnaryOperation)
    (isFunction : token = .function (.unary operation)) :
    ∃ others, rest = .openBracket :: others :=
  row.bracket [] operation rest (isFunction ▸ rfl)

theorem tail (row : WrittenRow (token :: rest)) : WrittenRow rest where
  written other member :=
    row.written other (List.mem_cons_of_mem token member)
  bracket before operation after same :=
    row.bracket (token :: before) operation after
      (congrArg (token :: ·) same)

end WrittenRow

/-- Of the operations on two numbers, the logarithm alone has a name with
letters. -/
theorem eq_logarithm_of_nameBefore {operation : BinaryOperation}
    {rest : List Char}
    (complete :
      NameBefore (Operation.binary operation).name.toList rest) :
    operation = .logarithm := by
  obtain ⟨first, found, lower⟩ :=
    Lexeme.exists_head_of_nameBefore complete
  cases operation with
  | logarithm => rfl
  | _ =>
      obtain rfl := Option.some.inj found
      cases lower

/-- A lexeme that may stand in a text denotes a token that is written. -/
theorem Lexeme.StandsBefore.written_token {lexeme : Lexeme}
    {rest : List Char} (stands : lexeme.StandsBefore rest)
    (afterOperand : Bool) :
    (lexeme.token afterOperand).Written := by
  cases lexeme with
  | numeral written => exact .number _
  | name operation =>
      cases operation with
      | constant named => exact .constant named
      | unary operation => exact .function operation
      | binary operation =>
          obtain rfl := eq_logarithm_of_nameBefore stands.1
          exact .logarithm
  | mark sign =>
      cases sign with
      | minus =>
          cases afterOperand with
          | true => exact .sign .subtract (by decide)
          | false => exact .negation
      | exclamation => exact .factorial
      | plus => exact .sign .add (by decide)
      | star => exact .sign .multiply (by decide)
      | slash => exact .sign .divide (by decide)
      | percent => exact .sign .remainder (by decide)
      | caret => exact .sign .power (by decide)
  | openBracket => exact .openBracket
  | closeBracket => exact .closeBracket

/-- The bracket of a function is the next token. -/
theorem exists_tokens_eq_openBracket {cut : Cut} {afterOperand : Bool}
    {operation : UnaryOperation} {lexeme : Lexeme}
    (lexical : cut.Lexical) (stands : lexeme.StandsBefore cut.text)
    (denoted : lexeme.token afterOperand = .function (.unary operation)) :
    ∃ rest,
      Lexeme.tokens lexeme.endsOperand cut.lexemes =
        .openBracket :: rest := by
  have named : lexeme = .name (.unary operation) := by
    rcases lexeme with written | (named | other | other) | sign | _ | _ <;>
      simp_all [Lexeme.token]
  subst named
  have first := lexical.opens_text_iff.mp (stands.2 rfl)
  cases shape : cut.lexemes with
  | nil => simp [shape] at first
  | cons next others =>
      rw [shape, List.head?_cons, Option.some.injEq] at first
      subst first
      exact ⟨_, rfl⟩

/-- The tokens of a lexical cut are written. -/
theorem Cut.Lexical.writtenRow {cut : Cut} (lexical : cut.Lexical)
    (afterOperand : Bool) :
    WrittenRow (Lexeme.tokens afterOperand cut.lexemes) := by
  obtain ⟨pieces, trailing⟩ := cut
  induction pieces generalizing afterOperand with
  | nil => exact ⟨by simp, by simp⟩
  | cons piece pieces ih =>
      obtain ⟨-, stands, rest⟩ := lexical_cons_iff.mp lexical
      have others := ih piece.lexeme.endsOperand rest
      rw [lexemes_cons, Lexeme.tokens_cons]
      constructor
      · exact List.forall_mem_cons.mpr
          ⟨stands.written_token afterOperand, others.written⟩
      · rintro (_ | ⟨first, before⟩) operation after same
        · obtain ⟨denoted, rfl⟩ := List.cons.inj same
          exact exists_tokens_eq_openBracket rest stands denoted
        · obtain ⟨-, remaining⟩ := List.cons.inj same
          exact others.bracket before operation after remaining

/-- The tokens of a text are written. -/
theorem writtenRow_of_tokenize {text : String} {tokens : List Token}
    (scanned : tokenize text = .ok tokens) :
    WrittenRow tokens := by
  obtain ⟨cut, -, accepted, rfl⟩ := tokenize_eq_ok_iff.mp scanned
  exact accepted.toLexical.writtenRow false

end Calculator

import Calculator.Proofs.Conversion.Groups
import Calculator.Proofs.Conversion.Order

/-!
# The grammar of infix expressions

An expression is a row of terms with an operator on two numbers between any
two of them.  A term is a primary with negations before and factorials after
it; a primary is a number, a constant, an expression in brackets, or a function
with its arguments, where the logarithm has its base before the brackets.

What a token may follow is said without the grammar.  A factorial follows an
operand, and what begins an operand does not, unless the first operand is the
base of a logarithm and the second one is in brackets.  This module shows that
the tokens of an expression are placed in this way.
-/

namespace Calculator

/-- The kinds of phrases. -/
inductive Part where
  | expression
  | term
  /-- A primary with the factorials after it. -/
  | factor
  | primary
  /-- The base of a logarithm. -/
  | base
  /-- A number, a constant, or an expression in brackets. -/
  | simple

/-- Tokens in brackets. -/
def inBrackets (inner : List Token) : List Token :=
  .openBracket :: (inner ++ [.closeBracket])

/-- The tokens form a phrase of the given kind. -/
inductive Phrase : Part → List Token → Prop
  | term {tokens : List Token} (single : Phrase .term tokens) :
      Phrase .expression tokens
  | sign {first second : List Token} (operation : BinaryOperation)
      (between : operation ≠ .logarithm)
      (left : Phrase .expression first) (right : Phrase .term second) :
      Phrase .expression
        (first ++ .operator (.binary operation) :: second)
  | factor {tokens : List Token} (plain : Phrase .factor tokens) :
      Phrase .term tokens
  | negation {tokens : List Token} (operand : Phrase .term tokens) :
      Phrase .term (.operator (.unary .negate) :: tokens)
  | primary {tokens : List Token} (plain : Phrase .primary tokens) :
      Phrase .factor tokens
  | factorial {tokens : List Token} (operand : Phrase .factor tokens) :
      Phrase .factor (tokens ++ [.operator (.unary .factorial)])
  | simple {tokens : List Token} (plain : Phrase .simple tokens) :
      Phrase .primary tokens
  | call {inner : List Token} (operation : UnaryOperation)
      (argument : Phrase .expression inner) :
      Phrase .primary (.function (.unary operation) :: inBrackets inner)
  | logarithm {base inner : List Token} (isBase : Phrase .base base)
      (argument : Phrase .expression inner) :
      Phrase .primary
        (.function (.binary .logarithm) :: (base ++ inBrackets inner))
  | base {tokens : List Token} (plain : Phrase .simple tokens) :
      Phrase .base tokens
  | baseNegation {tokens : List Token} (operand : Phrase .base tokens) :
      Phrase .base (.operator (.unary .negate) :: tokens)
  | number (value : Float) : Phrase .simple [.number value]
  | constant (named : Constant) :
      Phrase .simple [.constant (.constant named)]
  | bracketed {inner : List Token} (isInner : Phrase .expression inner) :
      Phrase .simple (inBrackets inner)

/-! ## Neighbours -/

namespace Token

/-- Whether an operand begins with the token. -/
def startsOperand : Token → Bool
  | .number _ | .openBracket => true
  | .closeBracket => false
  | .symbol ⟨.constant, _⟩ | .symbol ⟨.function, _⟩ => true
  | .symbol ⟨.operator, operation⟩ => operation.fixity == .beforeOperands

/-- Whether an operand ends with the token. -/
def endsOperand : Token → Bool
  | .number _ | .closeBracket => true
  | .openBracket => false
  | .symbol ⟨.constant, _⟩ => true
  | .symbol ⟨.function, _⟩ => false
  | .symbol ⟨.operator, operation⟩ => operation.fixity == .afterOperand

end Token

/-- The last token ends an operand. -/
def EndsOperand (tokens : List Token) : Prop :=
  ∃ before token, tokens = before ++ [token] ∧ token.endsOperand = true

/-- The tokens end with a logarithm without its base, or with negations after
it. -/
def AwaitsBase (tokens : List Token) : Prop :=
  ∃ before count,
    tokens = before ++ .function (.binary .logarithm) ::
      List.replicate count (.operator (.unary .negate))

/-- A number, a constant, or anything in brackets. -/
inductive SimpleShape : List Token → Prop
  | number (value : Float) : SimpleShape [.number value]
  | constant (named : Constant) : SimpleShape [.constant (.constant named)]
  | brackets {inner : List Token} (nested : Nested inner) :
      SimpleShape (inBrackets inner)

/-- The tokens end with the base of a logarithm. -/
def EndsBase (tokens : List Token) : Prop :=
  ∃ before base,
    tokens = before ++ base ∧ AwaitsBase before ∧ SimpleShape base

/-- The token may stand after the given ones. -/
structure MayFollow (before : List Token) (token : Token) : Prop where
  /-- A factorial follows an operand. -/
  factorial : token = .operator (.unary .factorial) → EndsOperand before
  /-- An operand follows no operand, unless it is in brackets after the base
  of a logarithm. -/
  operand : token.startsOperand = true →
    ¬ EndsOperand before ∨ token = .openBracket ∧ EndsBase before

/-- Each of the tokens may stand where it stands, after some other ones. -/
def PlacedAfter (front tokens : List Token) : Prop :=
  ∀ before token after,
    tokens = before ++ token :: after → MayFollow (front ++ before) token

/-- Each of the tokens may stand where it stands. -/
def Placed (tokens : List Token) : Prop :=
  ∀ before token after,
    tokens = before ++ token :: after → MayFollow before token

/-! ## Nested rows -/

namespace Nested

theorem nil : Nested [] := ⟨by simp, by simp⟩

theorem singleton {token : Token} (noBracket : token.isBracket = false) :
    Nested [token] := by
  have notOpening : token ≠ .openBracket := by
    rintro rfl
    cases noBracket
  have notClosing : token ≠ .closeBracket := by
    rintro rfl
    cases noBracket
  constructor
  · rintro (_ | count) <;> simp [notOpening, notClosing]
  · simp [notOpening, notClosing]

theorem append {first second : List Token} (isFirst : Nested first)
    (isSecond : Nested second) : Nested (first ++ second) := by
  constructor
  · intro count
    have inFirst := isFirst.prefixes count
    have inSecond := isSecond.prefixes (count - first.length)
    rw [List.take_append, List.count_append, List.count_append]
    omega
  · rw [List.count_append, List.count_append, isFirst.total,
      isSecond.total]

theorem cons {token : Token} {tokens : List Token}
    (noBracket : token.isBracket = false) (others : Nested tokens) :
    Nested (token :: tokens) :=
  (singleton noBracket).append others

theorem inBrackets {inner : List Token} (isInner : Nested inner) :
    Nested (inBrackets inner) := by
  constructor
  · rintro (_ | count)
    · simp
    · have within := isInner.prefixes count
      have closing :
          ([Token.closeBracket].take (count - inner.length)).count
            .closeBracket ≤ 1 :=
        (List.take_sublist _ _).count_le _
      rw [Calculator.inBrackets, List.take_succ_cons, List.take_append]
      simp only [List.count_cons, List.count_append]
      simp
      omega
  · have total := isInner.total
    simp [Calculator.inBrackets, total]

end Nested

/-- The brackets of a phrase are properly nested. -/
theorem Phrase.nested {part : Part} {tokens : List Token}
    (phrase : Phrase part tokens) : Nested tokens := by
  induction phrase with
  | term single ih => exact ih
  | sign operation between left right ihLeft ihRight =>
      exact ihLeft.append (ihRight.cons rfl)
  | factor plain ih => exact ih
  | negation operand ih => exact ih.cons rfl
  | primary plain ih => exact ih
  | factorial operand ih => exact ih.append (.singleton rfl)
  | simple plain ih => exact ih
  | call operation argument ih => exact ih.inBrackets.cons rfl
  | logarithm isBase argument ihBase ih =>
      exact (ihBase.append ih.inBrackets).cons rfl
  | base plain ih => exact ih
  | baseNegation operand ih => exact ih.cons rfl
  | number value => exact .singleton rfl
  | constant named => exact .singleton rfl
  | bracketed isInner ih => exact ih.inBrackets

/-! ## How tokens end -/

section

variable {front : List Token} {token : Token}

theorem not_endsOperand_nil : ¬ EndsOperand [] := by
  simp [EndsOperand]

@[simp]
theorem endsOperand_append_singleton_iff :
    EndsOperand (front ++ [token]) ↔ token.endsOperand = true := by
  constructor
  · rintro ⟨before, last, same, ends⟩
    obtain ⟨-, rfl⟩ := List.append_singleton_inj.mp same
    exact ends
  · intro ends
    exact ⟨front, token, rfl, ends⟩

theorem not_endsOperand_append_singleton
    (endsNone : token.endsOperand = false) :
    ¬ EndsOperand (front ++ [token]) := by
  rw [endsOperand_append_singleton_iff, endsNone]
  exact Bool.false_ne_true

theorem endsOperand_append_inBrackets (front inner : List Token) :
    EndsOperand (front ++ inBrackets inner) :=
  ⟨front ++ .openBracket :: inner, .closeBracket, by simp [inBrackets], rfl⟩

theorem not_awaitsBase_nil : ¬ AwaitsBase [] := by
  simp [AwaitsBase]

theorem awaitsBase_append_singleton_iff :
    AwaitsBase (front ++ [token]) ↔
      token = .function (.binary .logarithm) ∨
        token = .operator (.unary .negate) ∧ AwaitsBase front := by
  constructor
  · rintro ⟨before, count, same⟩
    cases count with
    | zero =>
        obtain ⟨-, rfl⟩ := List.append_singleton_inj.mp same
        exact Or.inl rfl
    | succ count =>
        rw [List.replicate_succ', ← List.cons_append, ← List.append_assoc]
          at same
        obtain ⟨rfl, rfl⟩ := List.append_singleton_inj.mp same
        exact Or.inr ⟨rfl, before, count, rfl⟩
  · rintro (rfl | ⟨rfl, before, count, rfl⟩)
    · exact ⟨front, 0, rfl⟩
    · refine ⟨before, count + 1, ?_⟩
      rw [List.replicate_succ', List.append_assoc, List.cons_append]

/-- Where a base is awaited, no operand has ended. -/
theorem AwaitsBase.not_endsOperand (awaits : AwaitsBase front) :
    ¬ EndsOperand front := by
  rintro ⟨before, token, rfl, ends⟩
  rcases awaitsBase_append_singleton_iff.mp awaits with rfl | ⟨rfl, -⟩ <;>
    cases ends

theorem AwaitsBase.append_simple (awaits : AwaitsBase front)
    {base : List Token} (simple : SimpleShape base) :
    EndsBase (front ++ base) :=
  ⟨front, base, rfl, awaits, simple⟩

theorem SimpleShape.endsOperand {base : List Token}
    (simple : SimpleShape base) : EndsOperand (front ++ base) := by
  cases simple with
  | number value => exact endsOperand_append_singleton_iff.mpr rfl
  | constant named => exact endsOperand_append_singleton_iff.mpr rfl
  | brackets nested => exact endsOperand_append_inBrackets _ _

end

/-- A phrase ends an operand. -/
theorem Phrase.endsOperand {part : Part} {tokens : List Token}
    (phrase : Phrase part tokens) (front : List Token) :
    EndsOperand (front ++ tokens) := by
  induction phrase generalizing front with
  | term single ih => exact ih front
  | @sign first second operation between left right ihLeft ihRight =>
      have ends := ihRight
        (front ++ (first ++ [.operator (.binary operation)]))
      simpa using ends
  | factor plain ih => exact ih front
  | negation operand ih =>
      have ends := ih (front ++ [.operator (.unary .negate)])
      simpa using ends
  | primary plain ih => exact ih front
  | factorial operand ih =>
      rw [← List.append_assoc, endsOperand_append_singleton_iff]
      rfl
  | simple plain ih => exact ih front
  | @call inner operation argument ih =>
      have ends := endsOperand_append_inBrackets
        (front ++ [.function (.unary operation)]) inner
      simpa using ends
  | @logarithm base inner isBase argument ihBase ih =>
      have ends := endsOperand_append_inBrackets
        (front ++ (.function (.binary .logarithm) :: base)) inner
      simpa using ends
  | base plain ih => exact ih front
  | baseNegation operand ih =>
      have ends := ih (front ++ [.operator (.unary .negate)])
      simpa using ends
  | number value => exact endsOperand_append_singleton_iff.mpr rfl
  | constant named => exact endsOperand_append_singleton_iff.mpr rfl
  | bracketed isInner ih => exact endsOperand_append_inBrackets _ _

/-- What is awaited as a base is one when it has come. -/
theorem AwaitsBase.append_phrase {part : Part} {front tokens : List Token}
    (awaits : AwaitsBase front) (phrase : Phrase part tokens)
    (isBase : part = .base ∨ part = .simple) :
    EndsBase (front ++ tokens) := by
  induction phrase generalizing front with
  | base plain ih => exact ih awaits (Or.inr rfl)
  | baseNegation operand ih =>
      have negated := awaitsBase_append_singleton_iff.mpr
        (Or.inr ⟨rfl, awaits⟩)
      have ends := ih negated (Or.inl rfl)
      simpa using ends
  | number value => exact awaits.append_simple (.number value)
  | constant named => exact awaits.append_simple (.constant named)
  | bracketed isInner ih =>
      exact awaits.append_simple (.brackets isInner.nested)
  | _ => rcases isBase with same | same <;> cases same

/-! ## The tokens of an expression are placed -/

section

variable {front first second rest : List Token} {token : Token}

@[simp]
theorem placedAfter_nil : PlacedAfter front [] := by
  simp [PlacedAfter]

theorem placedAfter_cons_iff :
    PlacedAfter front (token :: rest) ↔
      MayFollow front token ∧ PlacedAfter (front ++ [token]) rest := by
  constructor
  · intro placed
    constructor
    · simpa using placed [] token rest rfl
    · rintro before last after rfl
      simpa using placed (token :: before) last after rfl
  · rintro ⟨may, placed⟩ (_ | ⟨head, before⟩) last after same
    · obtain ⟨rfl, rfl⟩ := List.cons.inj same
      simpa using may
    · obtain ⟨rfl, rfl⟩ := List.cons.inj same
      simpa using placed before last after rfl

theorem placedAfter_append_iff :
    PlacedAfter front (first ++ second) ↔
      PlacedAfter front first ∧ PlacedAfter (front ++ first) second := by
  induction first generalizing front with
  | nil => simp
  | cons token first ih =>
      rw [List.cons_append, placedAfter_cons_iff, placedAfter_cons_iff, ih,
        and_assoc, List.append_assoc, List.singleton_append]

/-- Where no operand has ended, anything but a factorial may follow. -/
theorem MayFollow.of_not_endsOperand (unended : ¬ EndsOperand front)
    (notFactorial : token ≠ .operator (.unary .factorial)) :
    MayFollow front token :=
  ⟨fun same => absurd same notFactorial, fun _ => Or.inl unended⟩

/-- An operator on two numbers or a closing bracket may follow anything. -/
theorem MayFollow.of_startsOperand_eq_false
    (startsNone : token.startsOperand = false)
    (notFactorial : token ≠ .operator (.unary .factorial)) :
    MayFollow front token :=
  ⟨fun same => absurd same notFactorial,
    fun starts => absurd starts (Bool.eq_false_iff.mp startsNone)⟩

theorem PlacedAfter.inBrackets (may : MayFollow front .openBracket)
    (placed : PlacedAfter (front ++ [.openBracket]) rest) :
    PlacedAfter front (inBrackets rest) := by
  rw [Calculator.inBrackets, placedAfter_cons_iff, placedAfter_append_iff,
    placedAfter_cons_iff]
  exact ⟨may, placed, .of_startsOperand_eq_false rfl (by simp),
    placedAfter_nil⟩

end

/-- The tokens of a phrase are placed where no operand has ended. -/
theorem Phrase.placedAfter {part : Part} {tokens : List Token}
    (phrase : Phrase part tokens) {front : List Token}
    (unended : ¬ EndsOperand front) : PlacedAfter front tokens := by
  induction phrase generalizing front with
  | term single ih => exact ih unended
  | sign operation between left right ihLeft ihRight =>
      rw [placedAfter_append_iff, placedAfter_cons_iff]
      refine ⟨ihLeft unended, .of_startsOperand_eq_false ?_ (by simp),
        ihRight ?_⟩
      · cases operation <;> first | rfl | exact absurd rfl between
      · refine not_endsOperand_append_singleton ?_
        cases operation <;> rfl
  | factor plain ih => exact ih unended
  | negation operand ih =>
      rw [placedAfter_cons_iff]
      exact ⟨.of_not_endsOperand unended (by simp), ih
        (not_endsOperand_append_singleton rfl)⟩
  | primary plain ih => exact ih unended
  | @factorial tokens operand ih =>
      have may : MayFollow (front ++ tokens)
          (.operator (.unary .factorial)) :=
        ⟨fun _ => operand.endsOperand front, nofun⟩
      rw [placedAfter_append_iff, placedAfter_cons_iff]
      exact ⟨ih unended, may, placedAfter_nil⟩
  | simple plain ih => exact ih unended
  | call operation argument ih =>
      have opened : ¬ EndsOperand
          (front ++ [.function (.unary operation)]) :=
        not_endsOperand_append_singleton rfl
      rw [placedAfter_cons_iff]
      exact ⟨.of_not_endsOperand unended (by simp),
        .inBrackets (.of_not_endsOperand opened (by simp))
          (ih (not_endsOperand_append_singleton rfl))⟩
  | @logarithm base inner isBase argument ihBase ih =>
      have awaits : AwaitsBase
          (front ++ [.function (.binary .logarithm)]) :=
        awaitsBase_append_singleton_iff.mpr (Or.inl rfl)
      have based := awaits.append_phrase isBase (Or.inl rfl)
      have may : MayFollow
          (front ++ [.function (.binary .logarithm)] ++ base)
          .openBracket :=
        ⟨nofun, fun _ => Or.inr ⟨rfl, based⟩⟩
      rw [placedAfter_cons_iff, placedAfter_append_iff]
      exact ⟨.of_not_endsOperand unended (by simp),
        ihBase awaits.not_endsOperand,
        .inBrackets may (ih (not_endsOperand_append_singleton rfl))⟩
  | base plain ih => exact ih unended
  | baseNegation operand ih =>
      rw [placedAfter_cons_iff]
      exact ⟨.of_not_endsOperand unended (by simp), ih
        (not_endsOperand_append_singleton rfl)⟩
  | number value =>
      rw [placedAfter_cons_iff]
      exact ⟨.of_not_endsOperand unended (by simp), placedAfter_nil⟩
  | constant named =>
      rw [placedAfter_cons_iff]
      exact ⟨.of_not_endsOperand unended (by simp), placedAfter_nil⟩
  | bracketed isInner ih =>
      exact .inBrackets (.of_not_endsOperand unended (by simp))
        (ih (not_endsOperand_append_singleton rfl))

end Calculator

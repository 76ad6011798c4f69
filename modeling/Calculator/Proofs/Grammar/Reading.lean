import Calculator.Proofs.Conversion.Balance
import Calculator.Proofs.Evaluation.Count
import Calculator.Proofs.Grammar.Phrase
import Calculator.Proofs.Lexing.Written

/-!
# Reading an expression by counting

Tokens that are placed, and whose brackets are nested, are read from left to
right, a bracket pair at a time.  The reading keeps five stages apart: whether
an operand is expected or complete, whether the base of a logarithm is, and
whether the argument of a function is expected.  At each stage the operands so
far exceed the operations on two numbers by a certain number at most, and by
exactly that number only if what was read is the beginning of an expression.
A fault lowers the excess, and nothing raises it again.  So an excess of one
in the end, which is what an evaluation checks, is enough for an expression.
-/

namespace Calculator

/-! ## Rows of bracket pairs -/

/-- Tokens that a text can have, read by bracket pairs. -/
inductive Row : List Token → Prop
  | nil : Row []
  | token {token : Token} {rest : List Token} (written : token.Written)
      (noBracket : token.isBracket = false)
      (opens : ∀ operation, token = .function (.unary operation) →
        ∃ others, rest = .openBracket :: others)
      (others : Row rest) :
      Row (token :: rest)
  | pair {inner rest : List Token} (isInner : Row inner)
      (others : Row rest) :
      Row (inBrackets inner ++ rest)

/-- As many closing brackets as the depth says, with rows before, between and
after them. -/
inductive ClosingRows : Nat → List Token → Prop
  | last {row : List Token} (isRow : Row row) : ClosingRows 0 row
  | closing {depth : Nat} {row rest : List Token} (isRow : Row row)
      (others : ClosingRows depth rest) :
      ClosingRows (depth + 1) (row ++ .closeBracket :: rest)

theorem Row.nested {row : List Token} (isRow : Row row) : Nested row := by
  induction isRow with
  | nil => exact .nil
  | token written noBracket opens others ih => exact ih.cons noBracket
  | pair isInner others ihInner ih => exact ihInner.inBrackets.append ih

namespace ClosingRows

variable {depth : Nat} {rest : List Token}

theorem cons {token : Token} (written : token.Written)
    (noBracket : token.isBracket = false)
    (opens : ∀ operation, token = .function (.unary operation) →
      ∃ others, rest = .openBracket :: others)
    (rows : ClosingRows depth rest) :
    ClosingRows depth (token :: rest) := by
  cases rows with
  | last isRow => exact .last (.token written noBracket opens isRow)
  | @closing depth row rest isRow others =>
      refine .closing (.token written noBracket ?_ isRow) others
      intro operation isFunction
      obtain ⟨later, same⟩ := opens operation isFunction
      cases row with
      | nil => cases (List.cons.inj same).1
      | cons first row =>
          obtain ⟨rfl, -⟩ := List.cons.inj same
          exact ⟨row, rfl⟩

/-- The first of the closing brackets is the partner of a bracket before
them. -/
theorem openBracket (rows : ClosingRows (depth + 1) rest) :
    ClosingRows depth (.openBracket :: rest) := by
  cases rows with
  | @closing depth inner rest isInner others =>
      cases others with
      | @last row isRow =>
          have pair := ClosingRows.last (Row.pair isInner isRow)
          simpa [inBrackets] using pair
      | @closing depth row rest isRow others =>
          have pair := ClosingRows.closing (Row.pair isInner isRow) others
          simpa [inBrackets] using pair

end ClosingRows

theorem closingRows_of_nestedInside {depth : Nat} {tokens : List Token}
    (nested : NestedInside depth tokens) (written : WrittenRow tokens) :
    ClosingRows depth tokens := by
  induction tokens generalizing depth with
  | nil =>
      obtain rfl := nestedInside_nil_iff.mp nested
      exact .last .nil
  | cons token rest ih =>
      have rows {depth : Nat} (nested : NestedInside depth rest) :=
        ih nested written.tail
      cases token with
      | number value =>
          exact (rows (nestedInside_number_iff.mp nested)).cons
            written.head rfl written.opens
      | symbol used =>
          exact (rows (nestedInside_symbol_iff.mp nested)).cons
            written.head rfl written.opens
      | openBracket =>
          exact (rows (nestedInside_openBracket_iff.mp nested)).openBracket
      | closeBracket =>
          cases depth with
          | zero => exact absurd nested not_nestedInside_zero_closeBracket
          | succ depth =>
              exact .closing .nil
                (rows (nestedInside_succ_closeBracket_iff.mp nested))

/-- Nested tokens that a text can have are read by bracket pairs. -/
theorem Nested.row {tokens : List Token} (nested : Nested tokens)
    (written : WrittenRow tokens) : Row tokens := by
  have rows := closingRows_of_nestedInside
    ((nestedInside_zero_iff tokens).mpr nested) written
  cases rows with
  | last isRow => exact isRow

/-! ## Excess and stages -/

/-- The number of operands, less that of the operations on two numbers. -/
def excess (tokens : List Token) : Int :=
  (tokens.countP Token.isOperand : Int) - tokens.countP Token.takesTwo

@[simp]
theorem excess_nil : excess [] = 0 := rfl

@[simp]
theorem excess_append (first second : List Token) :
    excess (first ++ second) = excess first + excess second := by
  simp only [excess, List.countP_append]
  omega

@[simp]
theorem excess_inBrackets (inner : List Token) :
    excess (inBrackets inner) = excess inner := by
  have whole : inBrackets inner =
      [.openBracket] ++ (inner ++ [Token.closeBracket]) := rfl
  have opening : excess [.openBracket] = 0 := rfl
  have closing : excess [.closeBracket] = 0 := rfl
  rw [whole, excess_append, excess_append, opening, closing]
  omega

/-- What the tokens read so far wait for. -/
inductive Stage where
  /-- An operand. -/
  | operand
  /-- Nothing, since an operand is complete. -/
  | complete
  /-- The base of a logarithm. -/
  | base
  /-- The argument of a logarithm, after its base. -/
  | based
  /-- The argument of a function. -/
  | argument
  deriving DecidableEq

namespace Stage

/-- The largest excess of tokens at a stage. -/
def most : Stage → Int
  | operand => 0
  | complete => 1
  | base => -1
  | based => 0
  | argument => 0

/-- The last of the tokens lead to the stage. -/
def EndedBy (tokens : List Token) : Stage → Prop
  | operand => ¬ EndsOperand tokens ∧ ¬ AwaitsBase tokens
  | complete => EndsOperand tokens ∧ ¬ EndsBase tokens
  | base => AwaitsBase tokens
  | based => EndsBase tokens
  | argument => ¬ EndsOperand tokens ∧ ¬ AwaitsBase tokens

end Stage

/-- Any term completes the tokens to an expression. -/
def Leads (tokens : List Token) : Prop :=
  ∀ term, Phrase .term term → Phrase .expression (tokens ++ term)

/-- The tokens are the beginning of an expression, as far as the stage
says. -/
def Begins (tokens : List Token) : Stage → Prop
  | .operand => Leads tokens
  | .complete =>
      ∃ lead factor,
        tokens = lead ++ factor ∧ Leads lead ∧ Phrase .factor factor
  | .base =>
      ∃ lead negations,
        tokens = lead ++ .function (.binary .logarithm) :: negations ∧
          Leads lead ∧
            ∀ base, Phrase .base base → Phrase .base (negations ++ base)
  | .based =>
      ∃ lead base,
        tokens = lead ++ .function (.binary .logarithm) :: base ∧
          Leads lead ∧ Phrase .base base
  | .argument =>
      ∃ lead operation,
        tokens = lead ++ [.function (.unary operation)] ∧ Leads lead

/-! ## How an expression begins -/

section

variable {tokens : List Token}

theorem leads_nil : Leads [] := fun _ term => .term term

theorem Begins.expression (begins : Begins tokens .complete) :
    Phrase .expression tokens := by
  obtain ⟨lead, factor, rfl, leads, isFactor⟩ := begins
  exact leads factor (.factor isFactor)

theorem Begins.sign (begins : Begins tokens .complete)
    {operation : BinaryOperation} (between : operation ≠ .logarithm) :
    Leads (tokens ++ [Token.operator (.binary operation)]) := by
  intro term isTerm
  rw [List.append_assoc]
  exact .sign operation between begins.expression isTerm

theorem Leads.negation (leads : Leads tokens) :
    Leads (tokens ++ [Token.operator (.unary .negate)]) := by
  intro term isTerm
  rw [List.append_assoc]
  exact leads _ (.negation isTerm)

theorem Leads.primary (leads : Leads tokens) {primary : List Token}
    (isPrimary : Phrase .primary primary) :
    Begins (tokens ++ primary) .complete :=
  ⟨tokens, primary, rfl, leads, .primary isPrimary⟩

theorem Begins.factorial (begins : Begins tokens .complete) :
    Begins (tokens ++ [Token.operator (.unary .factorial)]) .complete := by
  obtain ⟨lead, factor, rfl, leads, isFactor⟩ := begins
  rw [List.append_assoc]
  exact ⟨lead, _, rfl, leads, .factorial isFactor⟩

theorem Leads.function (leads : Leads tokens)
    (operation : UnaryOperation) :
    Begins (tokens ++ [Token.function (.unary operation)]) .argument :=
  ⟨tokens, operation, rfl, leads⟩

theorem Begins.call (begins : Begins tokens .argument)
    {inner : List Token} (isInner : Phrase .expression inner) :
    Begins (tokens ++ inBrackets inner) .complete := by
  obtain ⟨lead, operation, rfl, leads⟩ := begins
  rw [List.append_assoc]
  exact leads.primary (.call operation isInner)

theorem Leads.logarithm (leads : Leads tokens) :
    Begins (tokens ++ [Token.function (.binary .logarithm)]) .base :=
  ⟨tokens, [], rfl, leads, fun _ isBase => isBase⟩

theorem Begins.baseNegation (begins : Begins tokens .base) :
    Begins (tokens ++ [Token.operator (.unary .negate)]) .base := by
  obtain ⟨lead, negations, rfl, leads, negated⟩ := begins
  rw [List.append_assoc]
  refine ⟨lead, negations ++ [Token.operator (.unary .negate)], rfl,
    leads, ?_⟩
  intro base isBase
  rw [List.append_assoc]
  exact negated _ (.baseNegation isBase)

theorem Begins.simpleBase (begins : Begins tokens .base)
    {simple : List Token} (isSimple : Phrase .simple simple) :
    Begins (tokens ++ simple) .based := by
  obtain ⟨lead, negations, rfl, leads, negated⟩ := begins
  rw [List.append_assoc]
  exact ⟨lead, _, rfl, leads, negated simple (.base isSimple)⟩

theorem Begins.logarithmArgument (begins : Begins tokens .based)
    {inner : List Token} (isInner : Phrase .expression inner) :
    Begins (tokens ++ inBrackets inner) .complete := by
  obtain ⟨lead, base, rfl, leads, isBase⟩ := begins
  rw [List.append_assoc]
  exact leads.primary (.logarithm isBase isInner)

end

/-! ## How bases end -/

section

variable {front inner : List Token} {token : Token}

/-- A nested row has no bracket that is opened before another nested row at
its end. -/
theorem Nested.ne_append_openBracket (nested : Nested inner)
    {before other : List Token} (otherNested : Nested other) :
    inner ≠ before ++ .openBracket :: other := by
  rintro rfl
  have within := nested.prefixes before.length
  have total := nested.total
  have otherTotal := otherNested.total
  rw [List.take_left] at within
  simp only [List.count_append, List.count_cons] at total
  simp at total
  omega

/-- The partner of a closing bracket at the end is found in one place
only. -/
theorem eq_of_append_inBrackets_eq {before other : List Token}
    (nested : Nested inner) (otherNested : Nested other)
    (same : front ++ inBrackets inner = before ++ inBrackets other) :
    front = before := by
  have opened :
      front ++ .openBracket :: inner = before ++ .openBracket :: other := by
    simp only [inBrackets, ← List.cons_append, ← List.append_assoc] at same
    exact (List.append_singleton_inj.mp same).1
  rcases List.append_eq_append_iff.mp opened with
    ⟨between, rfl, rest⟩ | ⟨between, rfl, rest⟩
  · cases between with
    | nil => simp
    | cons first between =>
        obtain ⟨rfl, later⟩ := List.cons.inj rest
        exact absurd later (nested.ne_append_openBracket otherNested)
  · cases between with
    | nil => simp
    | cons first between =>
        obtain ⟨rfl, later⟩ := List.cons.inj rest
        exact absurd later (otherNested.ne_append_openBracket nested)

/-- Nothing but a closing bracket ends brackets. -/
theorem eq_closeBracket_of_append_inBrackets_eq {before : List Token}
    (same : front ++ inBrackets inner = before ++ [token]) :
    token = .closeBracket := by
  simp only [inBrackets, ← List.cons_append, ← List.append_assoc] at same
  exact (List.append_singleton_inj.mp same).2.symm

theorem SimpleShape.endsBase_iff {base : List Token}
    (simple : SimpleShape base) :
    EndsBase (front ++ base) ↔ AwaitsBase front := by
  refine ⟨?_, fun awaits => awaits.append_simple simple⟩
  rintro ⟨before, other, same, awaits, otherSimple⟩
  suffices front = before by rwa [this]
  cases simple with
  | brackets nested =>
      cases otherSimple with
      | brackets otherNested =>
          exact eq_of_append_inBrackets_eq nested otherNested same
      | _ => cases eq_closeBracket_of_append_inBrackets_eq same
  | _ =>
      cases otherSimple with
      | brackets otherNested =>
          cases eq_closeBracket_of_append_inBrackets_eq same.symm
      | _ => exact (List.append_singleton_inj.mp same).1

theorem EndsBase.endsOperand (ends : EndsBase front) :
    EndsOperand front := by
  obtain ⟨before, base, rfl, -, simple⟩ := ends
  exact simple.endsOperand

/-- A factorial ends no base. -/
theorem not_endsBase_append_factorial :
    ¬ EndsBase (front ++ [Token.operator (.unary .factorial)]) := by
  rintro ⟨before, base, same, -, simple⟩
  cases simple with
  | brackets nested => cases eq_closeBracket_of_append_inBrackets_eq same.symm
  | _ => cases (List.append_singleton_inj.mp same).2

end

/-! ## One token or bracket pair -/

/-- Tokens have been read up to a stage.  The front is all that was read, the
part is what was read in the innermost open brackets. -/
structure Reads (stage : Stage) (front part : List Token) : Prop where
  endedBy : stage.EndedBy front
  bound : excess part ≤ stage.most
  begins : excess part = stage.most → Begins part stage

/-- The tokens count as one operand at most, and only as a simple phrase as
much as that. -/
structure CountsAsOperand (piece : List Token) : Prop where
  shape : SimpleShape piece
  bound : excess piece ≤ 1
  phrase : excess piece = 1 → Phrase .simple piece

theorem CountsAsOperand.number (value : Float) :
    CountsAsOperand [.number value] :=
  ⟨.number value, Int.le_refl 1, fun _ => .number value⟩

theorem CountsAsOperand.constant (named : Constant) :
    CountsAsOperand [.constant (.constant named)] :=
  ⟨.constant named, Int.le_refl 1, fun _ => .constant named⟩

/-- What was read in brackets, when they are closed. -/
theorem CountsAsOperand.inBrackets {inner : List Token}
    (nested : Nested inner) (bound : excess inner ≤ 1)
    (phrase : excess inner = 1 → Phrase .expression inner) :
    CountsAsOperand (inBrackets inner) where
  shape := .brackets nested
  bound := by rwa [excess_inBrackets]
  phrase := fun single =>
    .bracketed (phrase (by rwa [excess_inBrackets] at single))

namespace Reads

variable {stage : Stage} {front part piece inner : List Token}

theorem start : Reads .operand [] [] where
  endedBy := ⟨not_endsOperand_nil, not_awaitsBase_nil⟩
  bound := Int.le_refl 0
  begins := fun _ => leads_nil

/-- Where no operand has ended, an operand or a base is expected. -/
theorem stage_of_not_endsOperand (reads : Reads stage front part)
    (notArgument : stage ≠ .argument) (unended : ¬ EndsOperand front) :
    stage = .operand ∨ stage = .base := by
  cases stage with
  | operand => exact Or.inl rfl
  | complete => exact absurd reads.endedBy.1 unended
  | base => exact Or.inr rfl
  | based => exact absurd reads.endedBy.endsOperand unended
  | argument => exact absurd rfl notArgument

/-- Where an operand has ended, it is complete or a base. -/
theorem stage_of_endsOperand (reads : Reads stage front part)
    (ended : EndsOperand front) :
    stage = .complete ∨ stage = .based := by
  cases stage with
  | operand => exact absurd ended reads.endedBy.1
  | complete => exact Or.inl rfl
  | base => exact absurd ended reads.endedBy.not_endsOperand
  | based => exact Or.inr rfl
  | argument => exact absurd ended reads.endedBy.1

/-- Reading a piece leads to a stage whose largest excess is that of the stage
before it and of the piece, or is even larger.  In the latter case the excess
is too small from then on. -/
theorem step (reads : Reads stage front part) {next : Stage} {gain : Int}
    (endedBy : next.EndedBy (front ++ piece)) (bound : excess piece ≤ gain)
    (fits : stage.most + gain ≤ next.most)
    (begins : stage.most + gain = next.most → excess piece = gain →
      Begins part stage → Begins (part ++ piece) next) :
    Reads next (front ++ piece) (part ++ piece) := by
  have partBound := reads.bound
  refine ⟨endedBy, ?_, ?_⟩
  · rw [excess_append]
    omega
  · intro full
    rw [excess_append] at full
    exact begins (by omega) (by omega) (reads.begins (by omega))

theorem operand (reads : Reads .operand front part)
    (counts : CountsAsOperand piece) :
    Reads .complete (front ++ piece) (part ++ piece) := by
  have notBase : ¬ EndsBase (front ++ piece) := by
    rw [counts.shape.endsBase_iff]
    exact reads.endedBy.2
  refine reads.step ⟨counts.shape.endsOperand, notBase⟩ counts.bound
    (by decide) fun _ full leads => ?_
  exact Leads.primary leads (.simple (counts.phrase full))

theorem base (reads : Reads .base front part)
    (counts : CountsAsOperand piece) :
    Reads .based (front ++ piece) (part ++ piece) := by
  refine reads.step (counts.shape.endsBase_iff.mpr reads.endedBy)
    counts.bound (by decide) fun _ full begins => ?_
  exact begins.simpleBase (counts.phrase full)

/-- A number or a constant, or what counts as one. -/
theorem exists_operand (reads : Reads stage front part)
    (expects : stage = .operand ∨ stage = .base)
    (counts : CountsAsOperand piece) :
    ∃ next, next ≠ .argument ∧
      Reads next (front ++ piece) (part ++ piece) := by
  rcases expects with rfl | rfl
  · exact ⟨.complete, nofun, reads.operand counts⟩
  · exact ⟨.based, nofun, reads.base counts⟩

/-- The argument of a function, in brackets, completes an operand, whether
the function has a base or not. -/
theorem argument (reads : Reads stage front part)
    (isArgument : stage = .argument ∨ stage = .based)
    (nested : Nested inner) (bound : excess inner ≤ 1)
    (phrase : excess inner = 1 → Phrase .expression inner) :
    Reads .complete (front ++ inBrackets inner)
      (part ++ inBrackets inner) := by
  have notAwaited : ¬ AwaitsBase front := by
    rcases isArgument with rfl | rfl
    · exact reads.endedBy.2
    · exact fun awaits => awaits.not_endsOperand reads.endedBy.endsOperand
  have notBase : ¬ EndsBase (front ++ inBrackets inner) := by
    rwa [(SimpleShape.brackets nested).endsBase_iff]
  have endedBy : Stage.complete.EndedBy (front ++ inBrackets inner) :=
    ⟨endsOperand_append_inBrackets front inner, notBase⟩
  rw [← excess_inBrackets] at bound phrase
  rcases isArgument with rfl | rfl
  · exact reads.step endedBy bound (by decide)
      fun _ full begins => begins.call (phrase full)
  · exact reads.step endedBy bound (by decide)
      fun _ full begins => begins.logarithmArgument (phrase full)

/-- Brackets with what was read in them. -/
theorem exists_brackets (reads : Reads stage front part)
    (may : MayFollow front .openBracket)
    (nested : Nested inner) (bound : excess inner ≤ 1)
    (phrase : excess inner = 1 → Phrase .expression inner) :
    ∃ next, next ≠ .argument ∧
      Reads next (front ++ inBrackets inner)
        (part ++ inBrackets inner) := by
  have counts := CountsAsOperand.inBrackets nested bound phrase
  cases stage with
  | operand => exact reads.exists_operand (Or.inl rfl) counts
  | base => exact reads.exists_operand (Or.inr rfl) counts
  | argument =>
      exact ⟨.complete, nofun,
        reads.argument (Or.inl rfl) nested bound phrase⟩
  | based =>
      exact ⟨.complete, nofun,
        reads.argument (Or.inr rfl) nested bound phrase⟩
  | complete =>
      obtain ⟨ended, notBase⟩ := reads.endedBy
      rcases may.operand rfl with unended | ⟨-, isBase⟩
      · exact absurd ended unended
      · exact absurd isBase notBase

/-- An operator on two numbers makes the reading begin anew; after anything
but an operand the excess is then too small. -/
theorem sign (reads : Reads stage front part) {operation : BinaryOperation}
    (between : operation ≠ .logarithm) :
    Reads .operand (front ++ [Token.operator (.binary operation)])
      (part ++ [Token.operator (.binary operation)]) := by
  have endedBy : Stage.operand.EndedBy
      (front ++ [Token.operator (.binary operation)]) := by
    refine ⟨not_endsOperand_append_singleton ?_, ?_⟩
    · cases operation <;> rfl
    · simp [awaitsBase_append_singleton_iff]
  have one : excess [.operator (.binary operation)] ≤ -1 :=
    Int.le_refl (-1)
  cases stage with
  | complete =>
      exact reads.step endedBy one (by decide)
        fun _ _ begins => begins.sign between
  | _ =>
      exact reads.step endedBy one (by decide)
        fun same => absurd same (by decide)

/-- A negation leaves the stage as it is. -/
theorem negation (reads : Reads stage front part)
    (expects : stage = .operand ∨ stage = .base) :
    Reads stage (front ++ [Token.operator (.unary .negate)])
      (part ++ [Token.operator (.unary .negate)]) := by
  have none : excess [.operator (.unary .negate)] ≤ 0 := Int.le_refl 0
  rcases expects with rfl | rfl
  · have notAwaited : ¬ AwaitsBase
        (front ++ [Token.operator (.unary .negate)]) := by
      simpa [awaitsBase_append_singleton_iff] using reads.endedBy.2
    exact reads.step
      ⟨not_endsOperand_append_singleton rfl, notAwaited⟩ none (by decide)
      fun _ _ leads => Leads.negation leads
  · have awaits := awaitsBase_append_singleton_iff.mpr
      (Or.inr ⟨rfl, reads.endedBy⟩)
    exact reads.step awaits none (by decide)
      fun _ _ begins => begins.baseNegation

/-- A factorial after a base leaves the excess too small. -/
theorem factorial (reads : Reads stage front part)
    (ended : stage = .complete ∨ stage = .based) :
    Reads .complete (front ++ [Token.operator (.unary .factorial)])
      (part ++ [Token.operator (.unary .factorial)]) := by
  have endedBy : Stage.complete.EndedBy
      (front ++ [Token.operator (.unary .factorial)]) :=
    ⟨endsOperand_append_singleton_iff.mpr rfl,
      not_endsBase_append_factorial⟩
  have none : excess [.operator (.unary .factorial)] ≤ 0 := Int.le_refl 0
  rcases ended with rfl | rfl
  · exact reads.step endedBy none (by decide)
      fun _ _ begins => begins.factorial
  · exact reads.step endedBy none (by decide)
      fun same => absurd same (by decide)

/-- A function of one argument as a base leaves the excess too small. -/
theorem function (reads : Reads stage front part)
    (expects : stage = .operand ∨ stage = .base)
    (operation : UnaryOperation) :
    Reads .argument (front ++ [Token.function (.unary operation)])
      (part ++ [Token.function (.unary operation)]) := by
  have notAwaited : ¬ AwaitsBase
      (front ++ [Token.function (.unary operation)]) := by
    simp [awaitsBase_append_singleton_iff]
  have endedBy : Stage.argument.EndedBy
      (front ++ [Token.function (.unary operation)]) :=
    ⟨not_endsOperand_append_singleton rfl, notAwaited⟩
  have none : excess [.function (.unary operation)] ≤ 0 := Int.le_refl 0
  rcases expects with rfl | rfl
  · exact reads.step endedBy none (by decide)
      fun _ _ leads => Leads.function leads operation
  · exact reads.step endedBy none (by decide)
      fun same => absurd same (by decide)

/-- And so does a logarithm. -/
theorem logarithm (reads : Reads stage front part)
    (expects : stage = .operand ∨ stage = .base) :
    Reads .base (front ++ [Token.function (.binary .logarithm)])
      (part ++ [Token.function (.binary .logarithm)]) := by
  have awaits : AwaitsBase
      (front ++ [Token.function (.binary .logarithm)]) :=
    awaitsBase_append_singleton_iff.mpr (Or.inl rfl)
  have one : excess [.function (.binary .logarithm)] ≤ -1 :=
    Int.le_refl (-1)
  rcases expects with rfl | rfl
  · exact reads.step awaits one (by decide)
      fun _ _ leads => Leads.logarithm leads
  · exact reads.step awaits one (by decide)
      fun same => absurd same (by decide)

end Reads

end Calculator

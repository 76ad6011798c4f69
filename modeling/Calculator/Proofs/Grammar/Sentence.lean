import Calculator.Proofs.Evaluation.Structure
import Calculator.Proofs.Grammar.Reading

/-!
# Texts with a value and the grammar

Nothing but the number of operands and the nesting of the brackets is checked
before a text has a value.  That does not make its tokens an expression: the
factorial of `!5` precedes its operand, and the sum of `2 3 +` follows its
operands.  But such texts are recognised by neighbouring tokens.  Where every
token may follow those before it, the tokens of a text with a value are an
expression; so no operator lacks an operand then, and no brackets are empty.
-/

namespace Calculator

/-! ## All tokens -/

namespace Reads

variable {stage : Stage} {front part : List Token}

/-- After an opening bracket an operand is expected, and nothing has been
read in the bracket. -/
theorem openBracket (front : List Token) :
    Reads .operand (front ++ [Token.openBracket]) [] where
  endedBy := by
    refine ⟨not_endsOperand_append_singleton rfl, ?_⟩
    rw [awaitsBase_append_singleton_iff]
    simp
  bound := Int.le_refl 0
  begins := fun _ => leads_nil

/-- The excess is one at most, and is one for expressions only. -/
theorem bound_and_expression (reads : Reads stage front part) :
    excess part ≤ 1 ∧ (excess part = 1 → Phrase .expression part) := by
  have bound := reads.bound
  constructor
  · cases stage <;> simp only [Stage.most] at bound <;> omega
  · intro single
    have isComplete : stage = .complete := by
      cases stage <;> simp only [Stage.most] at bound <;>
        first | rfl | omega
    subst isComplete
    exact (reads.begins single).expression

/-- Any token but a bracket, one case for each token that can be written. -/
theorem exists_token (reads : Reads stage front part)
    (notArgument : stage ≠ .argument) {token : Token}
    (written : token.Written) (noBracket : token.isBracket = false)
    (may : MayFollow front token) :
    ∃ next,
      (next = .argument →
          ∃ operation, token = .function (.unary operation)) ∧
        Reads next (front ++ [token]) (part ++ [token]) := by
  have expects (starts : token.startsOperand = true) :
      stage = .operand ∨ stage = .base := by
    rcases may.operand starts with unended | ⟨rfl, -⟩
    · exact reads.stage_of_not_endsOperand notArgument unended
    · cases noBracket
  cases written with
  | number value =>
      obtain ⟨next, notArgument, reads⟩ :=
        reads.exists_operand (expects rfl) (.number value)
      exact ⟨next, fun same => absurd same notArgument, reads⟩
  | constant named =>
      obtain ⟨next, notArgument, reads⟩ :=
        reads.exists_operand (expects rfl) (.constant named)
      exact ⟨next, fun same => absurd same notArgument, reads⟩
  | function operation =>
      exact ⟨.argument, fun _ => ⟨operation, rfl⟩,
        reads.function (expects rfl) operation⟩
  | logarithm => exact ⟨.base, nofun, reads.logarithm (expects rfl)⟩
  | sign operation between =>
      exact ⟨.operand, nofun, reads.sign between⟩
  | negation =>
      exact ⟨stage, fun same => absurd same notArgument,
        reads.negation (expects rfl)⟩
  | factorial =>
      have ended := reads.stage_of_endsOperand (may.factorial rfl)
      exact ⟨.complete, nofun, reads.factorial ended⟩
  | openBracket => cases noBracket
  | closeBracket => cases noBracket

end Reads

/-- A row that is placed is read to its end, by induction on its bracket
pairs; what stands in a pair is read by itself, but what stands before the
pair decides where its tokens may stand. -/
theorem Row.exists_reads {row : List Token} (isRow : Row row)
    {stage : Stage} {front part : List Token}
    (reads : Reads stage front part) (placed : PlacedAfter front row)
    (opens : stage = .argument → ∃ others, row = .openBracket :: others) :
    ∃ next, next ≠ .argument ∧ Reads next (front ++ row) (part ++ row) := by
  induction isRow generalizing stage front part with
  | nil =>
      refine ⟨stage, ?_, by simpa using reads⟩
      intro isArgument
      obtain ⟨others, same⟩ := opens isArgument
      cases same
  | @token token rest written noBracket tokenOpens others ih =>
      have notArgument : stage ≠ .argument := by
        intro isArgument
        obtain ⟨others, same⟩ := opens isArgument
        obtain ⟨rfl, -⟩ := List.cons.inj same
        cases noBracket
      obtain ⟨may, rest⟩ := placedAfter_cons_iff.mp placed
      obtain ⟨next, isFunction, reads⟩ :=
        reads.exists_token notArgument written noBracket may
      have found := ih reads rest fun isArgument =>
        (isFunction isArgument).elim tokenOpens
      simpa using found
  | @pair inner rest isInner others ihInner ih =>
      obtain ⟨pair, rest⟩ := placedAfter_append_iff.mp placed
      obtain ⟨may, within⟩ := placedAfter_cons_iff.mp pair
      obtain ⟨innerPlaced, -⟩ := placedAfter_append_iff.mp within
      obtain ⟨innerStage, -, innerReads⟩ :=
        ihInner (.openBracket front) innerPlaced nofun
      obtain ⟨bound, phrase⟩ := innerReads.bound_and_expression
      obtain ⟨next, notArgument, reads⟩ :=
        reads.exists_brackets may isInner.nested bound phrase
      have found := ih reads rest fun same => absurd same notArgument
      simpa using found

/-- Tokens that a text can have, that are placed and whose operands exceed
the operations on two numbers by one, are an expression. -/
theorem Row.expression {tokens : List Token} (isRow : Row tokens)
    (placed : Placed tokens) (single : excess tokens = 1) :
    Phrase .expression tokens := by
  obtain ⟨stage, -, reads⟩ := isRow.exists_reads .start placed nofun
  exact reads.bound_and_expression.2 single

/-! ## Texts with a value -/

variable {library : Elementary} {text : String} {value : Float}

/-- The tokens of a text with a value are read by bracket pairs, and their
excess is one. -/
theorem exists_row_of_calculate_eq_ok
    (calculated : calculate library text = .ok value) :
    ∃ tokens,
      tokenize text = .ok tokens ∧ Row tokens ∧ excess tokens = 1 := by
  obtain ⟨tokens, scanned, count⟩ :=
    exists_countP_of_calculate_eq_ok calculated
  rw [calculate, scanned] at calculated
  change toReversePolish tokens >>= evaluate library = .ok value
    at calculated
  obtain ⟨ordered, converted, -⟩ := Outcome.bind_eq_ok_iff.mp calculated
  have nested := (exists_toReversePolish_eq_ok_iff tokens).mp
    ⟨ordered, converted⟩
  refine ⟨tokens, scanned, nested.row (writtenRow_of_tokenize scanned), ?_⟩
  rw [excess, count]
  omega

/-- The tokens of a text with a value are an expression exactly where each of
them may follow those before it. -/
theorem expression_iff_placed_of_calculate_eq_ok
    (calculated : calculate library text = .ok value) :
    ∃ tokens,
      tokenize text = .ok tokens ∧
        (Phrase .expression tokens ↔ Placed tokens) := by
  obtain ⟨tokens, scanned, isRow, single⟩ :=
    exists_row_of_calculate_eq_ok calculated
  refine ⟨tokens, scanned, ?_, fun placed => isRow.expression placed single⟩
  exact fun expression => expression.placedAfter not_endsOperand_nil

/-- A product with a sum in brackets. -/
theorem expression_iff_placed_product :
    calculate Elementary.system "2*(3+4)" = .ok 14 ∧
      ∃ tokens,
        tokenize "2*(3+4)" = .ok tokens ∧
          (Phrase .expression tokens ↔ Placed tokens) := by
  have calculated : calculate Elementary.system "2*(3+4)" = .ok 14 := by
    decide +kernel
  exact ⟨calculated, expression_iff_placed_of_calculate_eq_ok calculated⟩

/-- A factorial before its operand has a value, and is no expression. -/
theorem exists_value_without_expression :
    ∃ library text value tokens,
      calculate library text = .ok value ∧ tokenize text = .ok tokens ∧
        ¬ Phrase .expression tokens := by
  have calculated : calculate Elementary.system "!5" = .ok 120 := by
    decide +kernel
  have scanned : tokenize "!5" =
      .ok [.operator (.unary .factorial), .number 5] := by
    decide +kernel
  refine ⟨Elementary.system, "!5", 120, _, calculated, scanned, ?_⟩
  intro expression
  have placed := expression.placedAfter not_endsOperand_nil
  have ended := (placedAfter_cons_iff.mp placed).1.factorial rfl
  exact not_endsOperand_nil ended

end Calculator

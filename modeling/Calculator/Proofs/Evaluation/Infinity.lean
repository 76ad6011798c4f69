import Calculator.Proofs.Conversion.Order
import Calculator.Proofs.Evaluation.Bracketed
import Calculator.Proofs.Evaluation.Domain
import Calculator.Proofs.Lexing.Number

/-!
# No missing result without an infinity before

The numbers of a text are finite, and so are the constants.  So a value on the
stack that is not finite is the result of an operation, and an operation
without a result had such an operand.  Going back from operation to operation
this ends at one that returned an infinity.
-/

namespace Calculator

open Binary64

variable {library : Elementary} {ordered : List Token}

/-- The operation at a place of tokens in reverse Polish order is applied to
the operands on top of the stack, and returns a result. -/
def Returns (library : Elementary) (ordered : List Token) (place : Nat)
    (result : Float) : Prop :=
  ∃ used operands others,
    ordered[place]? = some (.symbol used) ∧
      runValues library [] (ordered.take place) =
        .ok (operands.reverse ++ others) ∧
      used.operation.applyTo? library operands = some (.ok result)

/-! ## What a token leaves on the stack -/

theorem withoutNoise_eq_or (number : Float) :
    withoutNoise number = number ∨ withoutNoise number = 0 := by
  rw [withoutNoise]
  split
  · exact .inr rfl
  · exact .inl rfl

theorem eq_of_withoutNoise {number : Float}
    (notFinite : ¬ (withoutNoise number).isFinite = true) :
    withoutNoise number = number := by
  refine (withoutNoise_eq_or number).resolve_right fun zero => ?_
  rw [zero] at notFinite
  exact notFinite isFinite_zero

/-- A token puts its number on the stack, or the result of its operation in
the place of the operands. -/
theorem exists_of_pushValue {values next : List Float} {token : Token}
    (pushed : pushValue library values token = .ok next) :
    (∃ value, token = .number value ∧ next = value :: values) ∨
      ∃ used operands others result,
        token = .symbol used ∧ values = operands.reverse ++ others ∧
          used.operation.applyTo? library operands = some (.ok result) ∧
          next = withoutNoise result :: others := by
  cases token with
  | number value => exact .inl ⟨value, rfl, (Except.ok.inj pushed).symm⟩
  | openBracket => cases pushed
  | closeBracket => cases pushed
  | symbol used =>
      right
      obtain ⟨role, operation⟩ := used
      rw [pushValue_symbol] at pushed
      unfold applyOnStack at pushed
      split at pushed
      · next named =>
          cases pushed
          refine ⟨⟨role, .constant named⟩, [], values, named.value, rfl, rfl,
            rfl, ?_⟩
          rw [withoutNoise_constant]
      · next operation argument others =>
          obtain ⟨result, applied, rfl⟩ := Outcome.map_eq_ok_iff.mp pushed
          exact ⟨⟨role, .unary operation⟩, [argument], others, result, rfl,
            rfl, congrArg some applied, rfl⟩
      · next operation second first others =>
          obtain ⟨result, applied, rfl⟩ := Outcome.map_eq_ok_iff.mp pushed
          exact ⟨⟨role, .binary operation⟩, [first, second], others, result,
            rfl, rfl, congrArg some applied, rfl⟩
      · cases pushed
      · cases pushed
      · cases pushed

/-! ## Values that are not finite -/

/-- A value on the stack that is not finite is the result of an operation
before.  The induction is on the tokens that are taken in. -/
theorem exists_returns_of_mem
    (written : ∀ value, Token.number value ∈ ordered →
      value.isFinite = true)
    {place : Nat} (within : place ≤ ordered.length) {values : List Float}
    (ran : runValues library [] (ordered.take place) = .ok values)
    {value : Float} (member : value ∈ values)
    (notFinite : ¬ value.isFinite = true) :
    ∃ earlier < place, Returns library ordered earlier value := by
  induction place generalizing values with
  | zero =>
      cases ran
      cases member
  | succ place ih =>
      have found := List.getElem?_eq_getElem within
      have taken := List.take_succ_eq_append_getElem within
      rw [taken, runValues_append, Outcome.bind_eq_ok_iff] at ran
      obtain ⟨before, ranBefore, pushed⟩ := ran
      rw [runValues_singleton] at pushed
      have earlier : ∀ others : List Float, (∀ v ∈ others, v ∈ before) →
          value ∈ others →
            ∃ earlier < place + 1, Returns library ordered earlier value := by
        intro others kept inside
        obtain ⟨earlier, less, returns⟩ :=
          ih (Nat.le_of_lt within) ranBefore (kept value inside)
        exact ⟨earlier, Nat.lt_succ_of_lt less, returns⟩
      rcases exists_of_pushValue pushed with
        ⟨number, isNumber, rfl⟩ |
        ⟨used, operands, others, result, isSymbol, rfl, applied, rfl⟩
      · rcases List.mem_cons.mp member with rfl | member
        · have inside := List.getElem_mem within
          rw [isNumber] at inside
          exact absurd (written _ inside) notFinite
        · exact earlier before (fun _ => id) member
      · rcases List.mem_cons.mp member with rfl | member
        · rw [eq_of_withoutNoise notFinite]
          exact ⟨place, Nat.lt_succ_self place, used, operands, others,
            isSymbol ▸ found, ranBefore, applied⟩
        · exact earlier others
            (fun _ inside => List.mem_append_right _ inside) member

/-- An operation without a result comes after one that returned an
infinity. -/
theorem exists_infinity_before (documented : library.Documented)
    (written : ∀ value, Token.number value ∈ ordered →
      value.isFinite = true)
    {later : Nat} {result : Float} (returns : Returns library ordered later result)
    (missing : result.isNaN = true) :
    ∃ earlier < later, ∃ infinite,
      infinite.isInf = true ∧ Returns library ordered earlier infinite := by
  induction later using Nat.strong_induction_on generalizing result with
  | _ later ih =>
      obtain ⟨used, operands, others, found, ran, applied⟩ := returns
      have within : later < ordered.length :=
        (List.getElem?_eq_some_iff.mp found).1
      have someInfinite : ∃ operand ∈ operands,
          ¬ operand.isFinite = true := by
        by_contra none
        push Not at none
        have isNumber := Operation.isNaN_of_applyTo? documented none applied
        rw [missing] at isNumber
        cases isNumber
      obtain ⟨operand, isOperand, notFinite⟩ := someInfinite
      obtain ⟨earlier, less, returned⟩ :=
        exists_returns_of_mem written (Nat.le_of_lt within) ran
          (List.mem_append_left _ (List.mem_reverse.mpr isOperand)) notFinite
      by_cases infinite : operand.isInf = true
      · exact ⟨earlier, less, operand, infinite, returned⟩
      · have operandMissing : operand.isNaN = true := by
          by_contra isNumber
          exact notFinite (isFinite_of_not_isInf
            (Bool.eq_false_of_not_eq_true isNumber)
            (Bool.eq_false_of_not_eq_true infinite))
        obtain ⟨first, before, rest⟩ := ih earlier less returned operandMissing
        exact ⟨first, before.trans less, rest⟩

/-- The domain checks are complete: an operation on finite numbers fails or
has a result, and an expression without a result has an operation without
one, and before it an operation that returned an infinity. -/
theorem isNaN_only_after_infinity (library : Elementary)
    (documented : library.Documented) :
    (∀ operation operands,
      operands.length = Operation.arity operation →
        (∀ operand ∈ operands, Float.isFinite operand = true) →
          (∃ failure,
              operation.applyTo? library operands =
                some (.error failure)) ∨
            ∃ value,
              operation.applyTo? library operands = some (.ok value) ∧
                value.isNaN = false) ∧
      ∀ text value,
        calculate library text = .ok value → value.isNaN = true →
          ∃ tokens ordered earlier later infinite missing,
            tokenize text = .ok tokens ∧
              toReversePolish tokens = .ok ordered ∧
              earlier < later ∧
              Returns library ordered earlier infinite ∧
              infinite.isInf = true ∧
              Returns library ordered later missing ∧
              missing.isNaN = true := by
  constructor
  · intro operation operands complete finite
    obtain ⟨outcome, applied⟩ := Option.isSome_iff_exists.mp
      ((operation.isSome_applyTo? library operands).mpr complete)
    cases outcome with
    | error failure => exact .inl ⟨failure, applied⟩
    | ok value =>
        exact .inr ⟨value, applied,
          Operation.isNaN_of_applyTo? documented finite applied⟩
  · intro text value valued missing
    obtain ⟨tokens, scanned, valued⟩ := Outcome.bind_eq_ok_iff.mp valued
    obtain ⟨ordered, converted, valued⟩ := Outcome.bind_eq_ok_iff.mp valued
    rw [evaluate_eq_runValues] at valued
    obtain ⟨values, ran, only⟩ := Outcome.bind_eq_ok_iff.mp valued
    obtain ⟨last, rfl, rfl⟩ := onlyValue_eq_ok_iff.mp only
    have written : ∀ value, Token.number value ∈ ordered →
        value.isFinite = true := by
      intro value member
      exact isFinite_of_mem_tokenize scanned
        ((mem_iff_of_toReversePolish_eq_ok converted).mp member).1
    have notFinite : ¬ (withoutNoise last).isFinite = true := by
      intro finite
      rw [isNaN_of_isFinite finite] at missing
      cases missing
    have kept := eq_of_withoutNoise notFinite
    rw [kept] at missing notFinite
    rw [← List.take_length (l := ordered)] at ran
    obtain ⟨later, -, returned⟩ := exists_returns_of_mem written
      (Nat.le_refl _) ran List.mem_cons_self notFinite
    obtain ⟨earlier, less, infinite, isInfinite, before⟩ :=
      exists_infinity_before documented written returned missing
    exact ⟨tokens, ordered, earlier, later, infinite, last, scanned,
      converted, less, before, isInfinite, returned, missing⟩

/-- The difference of two products that are too large has no result. -/
theorem isNaN_only_after_infinity_difference :
    ∃ library : Elementary,
      library.Documented ∧
        calculate library "1e200*1e200-1e200*1e200" = .ok (0 / 0) ∧
          (0 / 0 : Float).isNaN = true ∧
          ∃ tokens ordered earlier later infinite missing,
            tokenize "1e200*1e200-1e200*1e200" = .ok tokens ∧
              toReversePolish tokens = .ok ordered ∧
              earlier < later ∧
              Returns library ordered earlier infinite ∧
              infinite.isInf = true ∧
              Returns library ordered later missing ∧
              missing.isNaN = true := by
  let library : Elementary :=
    { sin := id, cos := fun _ => 1, tan := id, asin := id,
      acos := fun _ => 1, atan := id, sinh := id, cosh := fun _ => 1,
      tanh := id, asinh := id, acosh := id, atanh := id,
      exp := fun _ => 1, log := id, log2 := fun _ => 1, log10 := id,
      cbrt := id, pow := fun _ _ => 1 }
  have itself : ∀ domain, DefinedOn domain id :=
    fun _ argument finite _ => isNaN_of_isFinite finite
  have always : ∀ domain, DefinedOn domain fun _ => 1 :=
    fun _ _ _ _ => isNaN_of_isFinite isFinite_one
  have documented : library.Documented :=
    { sin := itself _, cos := fun _ _ => isFinite_one, tan := itself _,
      asin := itself _, acos := always _, atan := itself _,
      sinh := itself _, cosh := always _, tanh := itself _,
      asinh := itself _, acosh := itself _, atanh := itself _,
      exp := always _, log := itself _, log2 := always _,
      log10 := itself _, cbrt := itself _,
      log2_base := fun _ _ _ _ => ⟨isFinite_one, by
        rw [toRat_one]
        exact one_ne_zero⟩
      pow := fun _ _ _ _ _ => isNaN_of_isFinite isFinite_one }
  have valued : calculate library "1e200*1e200-1e200*1e200" =
      .ok (0 / 0) := by
    decide +kernel
  have missing : (0 / 0 : Float).isNaN = true := by decide
  exact ⟨library, documented, valued, missing,
    (isNaN_only_after_infinity library documented).2 _ _ valued missing⟩

end Calculator

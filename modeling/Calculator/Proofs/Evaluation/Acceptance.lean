import Calculator.Proofs.Evaluation.Tree
import Calculator.Proofs.Outcome
import Mathlib.Data.List.Induction
import Mathlib.Logic.ExistsUnique

/-!
# What the evaluation of tokens accepts

Every row of tokens is evaluated from left to right until a token cannot be
processed.  The tokens before that point always list a forest all of whose
trees have values.  The forest and the point are determined by the tokens, so
the outcome of an evaluation is described without its stack:

* there is a result exactly when the tokens list a single tree that has a
  value;
* a token that cannot be processed decides the error, and the tokens after it
  do not matter;
* when all tokens can be processed but list no tree, or more than one, the
  number of trees decides the error.
-/

namespace Calculator

/-- How a token fails after operands with the given values, the latest value
last. -/
inductive Refuses (library : Elementary) :
    List Float → Token → CalculationError → Prop
  /-- An operation without any operand. -/
  | noOperand (used : Symbol) (needed : used.operation.arity ≠ 0) :
      Refuses library [] (.symbol used)
        (.excessOperator used.operation.name)
  /-- An operation on two numbers with a single operand. -/
  | oneOperand (used : Symbol) (needed : used.operation.arity = 2)
      (only : Float) :
      Refuses library [only] (.symbol used)
        (.missingSecondArgument used.operation.name)
  /-- An operation that is not defined for its operand. -/
  | unaryFails (role : Role) (operation : UnaryOperation)
      (others : List Float) (argument : Float)
      (failure : CalculationError)
      (fails : operation.apply library argument = .error failure) :
      Refuses library (others ++ [argument])
        (.symbol ⟨role, .unary operation⟩) failure
  /-- An operation that is not defined for its two operands. -/
  | binaryFails (role : Role) (operation : BinaryOperation)
      (others : List Float) (first second : Float)
      (failure : CalculationError)
      (fails : operation.apply library first second = .error failure) :
      Refuses library (others ++ [first, second])
        (.symbol ⟨role, .binary operation⟩) failure
  /-- An opening bracket, which is no part of reverse Polish order. -/
  | openBracket (values : List Float) :
      Refuses library values .openBracket .unmatchedBracket
  /-- A closing bracket, which is none either. -/
  | closeBracket (values : List Float) :
      Refuses library values .closeBracket .unmatchedBracket

/-- The error when all tokens are processed and the given number of trees
other than one is left. -/
def leftOver (count : Nat) : CalculationError :=
  if count = 0 then .noValue else .tooManyValues count

/-- The trees of the forest have values, and the token fails after them. -/
def StopsAfter (library : Elementary) (forest : Forest) (token : Token)
    (failure : CalculationError) : Prop :=
  ∃ values,
    forest.values library = .ok values ∧
      Refuses library values token failure

theorem refuses_of_pushValue_eq_error {library : Elementary}
    {stack : List Float} {token : Token} {failure : CalculationError}
    (pushed : pushValue library stack token = .error failure) :
    Refuses library stack.reverse token failure := by
  cases token with
  | number value => cases pushed
  | openBracket =>
      cases pushed
      exact .openBracket _
  | closeBracket =>
      cases pushed
      exact .closeBracket _
  | symbol used =>
      obtain ⟨role, named | operation | operation⟩ := used
      · cases pushed
      · rcases stack with _ | ⟨argument, others⟩
        · cases pushed
          exact .noOperand ⟨role, .unary operation⟩ (Nat.succ_ne_zero 0)
        · have fails := Outcome.map_eq_error_iff.mp pushed
          rw [List.reverse_cons]
          exact .unaryFails role operation _ argument failure fails
      · rcases stack with _ | ⟨second, _ | ⟨first, others⟩⟩
        · cases pushed
          exact .noOperand ⟨role, .binary operation⟩ (Nat.succ_ne_zero 1)
        · cases pushed
          exact .oneOperand ⟨role, .binary operation⟩ rfl second
        · have fails := Outcome.map_eq_error_iff.mp pushed
          have reversed :
              (second :: first :: others).reverse =
                others.reverse ++ [first, second] := by
            simp
          rw [reversed]
          exact .binaryFails role operation _ first second failure fails

theorem Refuses.pushValue_reverse {library : Elementary}
    {values : List Float} {token : Token} {failure : CalculationError}
    (refuses : Refuses library values token failure) :
    pushValue library values.reverse token = .error failure := by
  cases refuses with
  | noOperand used needed =>
      obtain ⟨role, named | operation | operation⟩ := used
      · exact absurd rfl needed
      · rfl
      · rfl
  | oneOperand used needed only =>
      obtain ⟨role, named | operation | operation⟩ := used
      · cases needed
      · cases needed
      · rfl
  | unaryFails role operation others argument failure fails =>
      simp [applyOnStack, fails, Except.map]
  | binaryFails role operation others first second failure fails =>
      simp [applyOnStack, fails, Except.map]
  | openBracket values => rfl
  | closeBracket values => rfl

/-- A token fails on the stack exactly as the relation says. -/
theorem pushValue_eq_error_iff {library : Elementary}
    {stack : List Float} {token : Token} {failure : CalculationError} :
    pushValue library stack token = .error failure ↔
      Refuses library stack.reverse token failure := by
  constructor
  · exact refuses_of_pushValue_eq_error
  · intro refuses
    have pushed := refuses.pushValue_reverse
    rwa [List.reverse_reverse] at pushed

/-- A run fails exactly when a token fails on the stack that the tokens
before it leave. -/
theorem runValues_eq_error_iff {library : Elementary}
    {stack : List Float} {tokens : List Token}
    {failure : CalculationError} :
    runValues library stack tokens = .error failure ↔
      ∃ before token after between,
        tokens = before ++ token :: after ∧
          runValues library stack before = .ok between ∧
            pushValue library between token = .error failure := by
  constructor
  · intro failed
    induction tokens generalizing stack with
    | nil => cases failed
    | cons token tokens ih =>
        rw [runValues_cons, Outcome.bind_eq_error_iff] at failed
        rcases failed with pushed | ⟨next, pushed, failed⟩
        · exact ⟨[], token, tokens, stack, rfl, rfl, pushed⟩
        · obtain ⟨before, stop, after, between, rfl, ran, stopped⟩ :=
            ih failed
          refine
            ⟨token :: before, stop, after, between, rfl, ?_, stopped⟩
          rw [runValues_cons, Outcome.bind_eq_ok_iff]
          exact ⟨next, pushed, ran⟩
  · rintro ⟨before, token, after, between, rfl, ran, stopped⟩
    rw [runValues_append, Outcome.bind_eq_error_iff]
    refine Or.inr ⟨between, ran, ?_⟩
    rw [runValues_cons, Outcome.bind_eq_error_iff]
    exact Or.inl stopped

/-- A token that can be processed after a forest extends it to a forest. -/
theorem exists_forest_of_pushValue {library : Elementary}
    {forest : Forest} {stack next : List Float} {token : Token}
    (evaluated : forest.values library = .ok stack.reverse)
    (pushed : pushValue library stack token = .ok next) :
    ∃ grown : Forest,
      grown.postorder = forest.postorder ++ [token] ∧
        grown.values library = .ok next.reverse := by
  cases token with
  | number value =>
      cases pushed
      rw [List.reverse_cons]
      exact ⟨forest ++ [.number value], by simp [ExpressionTree.postorder],
        Forest.values_append_singleton evaluated rfl⟩
  | openBracket => cases pushed
  | closeBracket => cases pushed
  | symbol used =>
      obtain ⟨role, named | operation | operation⟩ := used
      · cases pushed
        rw [List.reverse_cons]
        exact ⟨forest ++ [.constant role named],
          by simp [ExpressionTree.postorder],
          Forest.values_append_singleton evaluated rfl⟩
      · rcases stack with _ | ⟨argument, others⟩
        · cases pushed
        · obtain ⟨result, applied, rfl⟩ := Outcome.map_eq_ok_iff.mp pushed
          rw [List.reverse_cons] at evaluated ⊢
          obtain ⟨before, operand, rfl, beforeValues, operandValue⟩ :=
            Forest.values_eq_ok_append_singleton evaluated
          refine ⟨before ++ [.unary role operation operand],
            by simp [ExpressionTree.postorder],
            Forest.values_append_singleton beforeValues ?_⟩
          rw [ExpressionTree.value, operandValue]
          change (operation.apply library argument).map _ = _
          rw [applied]
          rfl
      · rcases stack with _ | ⟨right, _ | ⟨left, others⟩⟩
        · cases pushed
        · cases pushed
        · obtain ⟨result, applied, rfl⟩ := Outcome.map_eq_ok_iff.mp pushed
          rw [List.reverse_cons, List.reverse_cons] at evaluated
          rw [List.reverse_cons]
          obtain ⟨most, second, rfl, mostValues, secondValue⟩ :=
            Forest.values_eq_ok_append_singleton evaluated
          obtain ⟨before, first, rfl, beforeValues, firstValue⟩ :=
            Forest.values_eq_ok_append_singleton mostValues
          refine ⟨before ++ [.binary role operation first second],
            by simp [ExpressionTree.postorder],
            Forest.values_append_singleton beforeValues ?_⟩
          rw [ExpressionTree.value, firstValue, secondValue]
          change (operation.apply library left right).map _ = _
          rw [applied]
          rfl

/-- Tokens that can all be processed list a forest whose values are on the
stack. -/
theorem exists_forest_of_runValues {library : Elementary}
    {tokens : List Token} {stack : List Float}
    (ran : runValues library [] tokens = .ok stack) :
    ∃ forest : Forest,
      forest.postorder = tokens ∧
        forest.values library = .ok stack.reverse := by
  induction tokens using List.reverseRecOn generalizing stack with
  | nil =>
      cases ran
      exact ⟨[], rfl, rfl⟩
  | append_singleton before token ih =>
      rw [runValues_append, Outcome.bind_eq_ok_iff] at ran
      obtain ⟨between, ranBefore, pushed⟩ := ran
      rw [runValues_singleton] at pushed
      obtain ⟨forest, listed, evaluated⟩ := ih ranBefore
      rw [← listed]
      exact exists_forest_of_pushValue evaluated pushed

theorem runValues_eq_ok_iff {library : Elementary}
    {tokens : List Token} {stack : List Float} :
    runValues library [] tokens = .ok stack ↔
      ∃ forest : Forest,
        forest.postorder = tokens ∧
          forest.values library = .ok stack.reverse := by
  constructor
  · exact exists_forest_of_runValues
  · rintro ⟨forest, rfl, evaluated⟩
    rw [runValues_forest, evaluated]
    simp [Except.map]

/-- The only value is there exactly when there is a single one. -/
theorem onlyValue_eq_ok_iff {stack : List Float} {result : Float} :
    onlyValue stack = .ok result ↔
      ∃ value, stack = [value] ∧ withoutNoise value = result := by
  rcases stack with _ | ⟨value, _ | ⟨next, others⟩⟩ <;>
    simp [onlyValue]

theorem onlyValue_eq_error_iff {stack : List Float}
    {failure : CalculationError} :
    onlyValue stack = .error failure ↔
      stack.length ≠ 1 ∧ failure = leftOver stack.length := by
  rcases stack with _ | ⟨value, _ | ⟨next, others⟩⟩ <;>
    simp [onlyValue, leftOver, eq_comm]

/-- There are as many values as trees. -/
theorem Forest.length_values {library : Elementary} {forest : Forest}
    {found : List Float}
    (evaluated : forest.values library = .ok found) :
    found.length = forest.length := by
  induction forest generalizing found with
  | nil =>
      cases evaluated
      rfl
  | cons tree forest ih =>
      rw [← List.singleton_append, Forest.values_append,
        Outcome.bind_eq_ok_iff] at evaluated
      obtain ⟨first, firstFound, evaluated⟩ := evaluated
      obtain ⟨others, othersFound, rfl⟩ :=
        Outcome.map_eq_ok_iff.mp evaluated
      rw [Forest.values_singleton, Outcome.map_eq_ok_iff] at firstFound
      obtain ⟨value, -, rfl⟩ := firstFound
      simp [ih othersFound]

/-- Tokens have a result exactly when they list a tree with a value. -/
theorem evaluate_eq_ok_iff {library : Elementary}
    {tokens : List Token} {result : Float} :
    evaluate library tokens = .ok result ↔
      ∃ tree : ExpressionTree,
        tree.postorder = tokens ∧
          (tree.value library).map withoutNoise = .ok result := by
  rw [evaluate_eq_runValues, Outcome.bind_eq_ok_iff]
  constructor
  · rintro ⟨stack, ran, only⟩
    obtain ⟨value, rfl, rfl⟩ := onlyValue_eq_ok_iff.mp only
    obtain ⟨forest, listed, evaluated⟩ := runValues_eq_ok_iff.mp ran
    have single : [value].reverse = [] ++ [value] := rfl
    rw [single] at evaluated
    obtain ⟨before, tree, rfl, none, found⟩ :=
      Forest.values_eq_ok_append_singleton evaluated
    have empty : before = [] :=
      List.length_eq_zero_iff.mp (Forest.length_values none).symm
    subst empty
    refine ⟨tree, ?_, ?_⟩
    · simpa [Forest.postorder] using listed
    · rw [found]
      rfl
  · rintro ⟨tree, rfl, valued⟩
    obtain ⟨value, found, rfl⟩ := Outcome.map_eq_ok_iff.mp valued
    refine ⟨[value], ?_, rfl⟩
    rw [runValues_postorder, found]
    rfl

/-- A token that fails after a forest decides the error, whatever follows
it. -/
theorem evaluate_eq_error_of_stopsAfter {library : Elementary}
    {forest : Forest} {token : Token} {failure : CalculationError}
    (stops : StopsAfter library forest token failure)
    (after : List Token) :
    evaluate library (forest.postorder ++ token :: after) =
      .error failure := by
  obtain ⟨values, evaluated, refuses⟩ := stops
  rw [evaluate_eq_runValues, Outcome.bind_eq_error_iff]
  left
  rw [runValues_eq_error_iff]
  refine ⟨forest.postorder, token, after, values.reverse, rfl, ?_, ?_⟩
  · rw [runValues_eq_ok_iff]
    exact ⟨forest, rfl, by simpa using evaluated⟩
  · rw [pushValue_eq_error_iff, List.reverse_reverse]
    exact refuses

/-- A forest with values has no token that fails inside it. -/
theorem not_stopsAfter_of_postorder_eq_append {library : Elementary}
    {whole forest : Forest} {token : Token} {after : List Token}
    {found : List Float} {failure : CalculationError}
    (evaluated : whole.values library = .ok found)
    (listed : whole.postorder = forest.postorder ++ token :: after) :
    ¬ StopsAfter library forest token failure := by
  intro stops
  have failed := evaluate_eq_error_of_stopsAfter stops after
  have ran : runValues library [] whole.postorder = .ok found.reverse :=
    runValues_eq_ok_iff.mpr ⟨whole, rfl, by simpa using evaluated⟩
  obtain ⟨values, forestValues, refuses⟩ := stops
  rw [← List.reverse_reverse values, ← pushValue_eq_error_iff] at refuses
  have failedRun : runValues library [] whole.postorder =
      .error failure := by
    rw [runValues_eq_error_iff]
    refine
      ⟨forest.postorder, token, after, _, listed, ?_, refuses⟩
    rw [runValues_eq_ok_iff]
    exact ⟨forest, rfl, by simpa using forestValues⟩
  rw [ran] at failedRun
  cases failedRun

/-- Tokens stop at one place at most. -/
theorem stopsAfter_unique {library : Elementary}
    {first second : Forest} {firstToken secondToken : Token}
    {firstAfter secondAfter : List Token}
    {firstFailure secondFailure : CalculationError}
    (firstStops :
      StopsAfter library first firstToken firstFailure)
    (secondStops :
      StopsAfter library second secondToken secondFailure)
    (same :
      first.postorder ++ firstToken :: firstAfter =
        second.postorder ++ secondToken :: secondAfter) :
    first = second ∧ firstToken = secondToken ∧
      firstAfter = secondAfter := by
  -- Were the places different, one would lie inside the other's forest.
  rcases List.append_eq_append_iff.mp same with
    ⟨between, secondListed, rest⟩ | ⟨between, firstListed, rest⟩
  · cases between with
    | nil =>
        rw [List.append_nil] at secondListed
        obtain ⟨rfl, rfl⟩ := List.cons.inj rest
        exact ⟨Forest.postorder_injective secondListed.symm, rfl, rfl⟩
    | cons token others =>
        obtain ⟨rfl, -⟩ := List.cons.inj rest
        obtain ⟨values, evaluated, -⟩ := secondStops
        exact absurd firstStops
          (not_stopsAfter_of_postorder_eq_append evaluated secondListed)
  · cases between with
    | nil =>
        rw [List.append_nil] at firstListed
        obtain ⟨rfl, rfl⟩ := List.cons.inj rest
        exact ⟨Forest.postorder_injective firstListed, rfl, rfl⟩
    | cons token others =>
        obtain ⟨rfl, -⟩ := List.cons.inj rest
        obtain ⟨values, evaluated, -⟩ := firstStops
        exact absurd secondStops
          (not_stopsAfter_of_postorder_eq_append evaluated firstListed)

/-- An evaluation fails either at a token that cannot be processed, or at its
end with a number of trees other than one. -/
theorem evaluate_eq_error_iff {library : Elementary}
    {tokens : List Token} {failure : CalculationError} :
    evaluate library tokens = .error failure ↔
      (∃ forest token after,
        tokens = Forest.postorder forest ++ token :: after ∧
          StopsAfter library forest token failure) ∨
      ∃ forest found,
        tokens = Forest.postorder forest ∧
          forest.values library = .ok found ∧
            forest.length ≠ 1 ∧ failure = leftOver forest.length := by
  constructor
  · intro failed
    rw [evaluate_eq_runValues, Outcome.bind_eq_error_iff] at failed
    rcases failed with failed | ⟨stack, ran, failed⟩
    · obtain ⟨before, token, after, between, rfl, ran, pushed⟩ :=
        runValues_eq_error_iff.mp failed
      obtain ⟨forest, rfl, evaluated⟩ := runValues_eq_ok_iff.mp ran
      exact Or.inl ⟨forest, token, after, rfl, between.reverse,
        evaluated, pushValue_eq_error_iff.mp pushed⟩
    · obtain ⟨forest, rfl, evaluated⟩ := runValues_eq_ok_iff.mp ran
      have count := Forest.length_values evaluated
      rw [List.length_reverse] at count
      rw [onlyValue_eq_error_iff, count] at failed
      exact Or.inr ⟨forest, stack.reverse, rfl, evaluated, failed⟩
  · rintro (⟨forest, token, after, rfl, stops⟩ |
      ⟨forest, found, rfl, evaluated, notSingle, rfl⟩)
    · exact evaluate_eq_error_of_stopsAfter stops after
    · rw [evaluate_eq_runValues, Outcome.bind_eq_error_iff]
      refine Or.inr ⟨found.reverse, ?_, ?_⟩
      · rw [runValues_eq_ok_iff]
        exact ⟨forest, rfl, by simpa using evaluated⟩
      · rw [onlyValue_eq_error_iff, List.length_reverse,
          Forest.length_values evaluated]
        exact ⟨notSingle, rfl⟩

/--
The complete description of an evaluation, for every row of tokens and
whatever role each operation is used in.

* Tokens list at most one forest.
* There is a result exactly when the tokens list a single tree that has a
  value, and the result is that value without noise.
* There is an error exactly when some token fails after a forest with values,
  at one place only, or when the tokens list a forest with values and no or
  several trees; the error is the one that the place or the number of trees
  decides.
* What stands after a token that fails does not matter.
-/
theorem evaluate_characterization (library : Elementary) :
    Function.Injective Forest.postorder ∧
      (∀ tokens result,
        evaluate library tokens = .ok result ↔
          ∃! tree : ExpressionTree,
            tree.postorder = tokens ∧
              (tree.value library).map withoutNoise = .ok result) ∧
      (∀ tokens failure,
        evaluate library tokens = .error failure ↔
          (∃! stop : Forest × Token × List Token,
            tokens = stop.1.postorder ++ stop.2.1 :: stop.2.2 ∧
              StopsAfter library stop.1 stop.2.1 failure) ∨
          ∃! forest : Forest,
            tokens = forest.postorder ∧
              (∃ found, forest.values library = .ok found) ∧
                forest.length ≠ 1 ∧
                  failure = leftOver forest.length) ∧
      ∀ forest token failure,
        StopsAfter library forest token failure →
          ∀ after,
            evaluate library (forest.postorder ++ token :: after) =
              .error failure := by
  refine ⟨Forest.postorder_injective, ?_, ?_, ?_⟩
  · intro tokens result
    rw [evaluate_eq_ok_iff]
    refine ⟨?_, fun ⟨tree, found, _⟩ => ⟨tree, found⟩⟩
    rintro ⟨tree, rfl, valued⟩
    refine ⟨tree, ⟨rfl, valued⟩, ?_⟩
    rintro other ⟨listed, -⟩
    have same : Forest.postorder [other] = Forest.postorder [tree] := by
      simpa [Forest.postorder] using listed
    simpa using Forest.postorder_injective same
  · intro tokens failure
    rw [evaluate_eq_error_iff]
    constructor
    · rintro (⟨forest, token, after, rfl, stops⟩ |
        ⟨forest, found, rfl, evaluated, rest⟩)
      · refine Or.inl ⟨(forest, token, after), ⟨rfl, stops⟩, ?_⟩
        rintro ⟨other, otherToken, otherAfter⟩ ⟨same, otherStops⟩
        obtain ⟨rfl, rfl, rfl⟩ := stopsAfter_unique stops otherStops same
        rfl
      · refine Or.inr ⟨forest, ⟨rfl, ⟨found, evaluated⟩, rest⟩, ?_⟩
        rintro other ⟨listed, -⟩
        exact Forest.postorder_injective listed.symm
    · rintro (⟨⟨forest, token, after⟩, ⟨listed, stops⟩, -⟩ |
        ⟨forest, ⟨listed, ⟨found, evaluated⟩, rest⟩, -⟩)
      · exact Or.inl ⟨forest, token, after, listed, stops⟩
      · exact Or.inr ⟨forest, found, listed, evaluated, rest⟩
  · intro forest token failure stops after
    exact evaluate_eq_error_of_stopsAfter stops after

end Calculator

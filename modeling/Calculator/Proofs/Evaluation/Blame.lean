import Calculator.Proofs.Conversion.Order
import Calculator.Proofs.Evaluation.Acceptance
import Calculator.Proofs.Lexing.Fault

/-!
# What an error blames

An evaluation that fails at an operation names it, and tells the numbers that
it was applied to.  The operation was written in the text, and it did fail on
those numbers.  There is one exception: `cosec` is reported by the name of
`csc`, of which it is another spelling.

The errors of each operation are looked at once, in `blames_of_applyTo?`; the
rest follows the token that fails back to the text.
-/

namespace Calculator

/-- Whether the error says which operation failed: it names it, or it belongs
to one operation only. -/
def CalculationError.tellsOperation : CalculationError → Bool
  | .divisionByZero .. => true
  | .outsideDomain .. => true
  | .invalidPower .. => true
  | .invalidLogarithm .. => true
  | .negativeArgument .. => true
  | .fractionalArgument .. => true
  | .overflow .. => true
  | .excessOperator _ => true
  | .missingSecondArgument _ => true
  | _ => false

/-- The error tells the operation and the operands; of a division it tells
the dividend, and of too few operands nothing. -/
inductive Blames : Operation → List Float → CalculationError → Prop
  | divisionByZero (operation : BinaryOperation) (dividend divisor : Float)
      (zero : (divisor == 0) = true) :
      Blames (.binary operation) [dividend, divisor]
        (.divisionByZero operation.name dividend)
  | outsideDomain (operation : UnaryOperation) (argument : Float)
      (domain : String) :
      Blames (.unary operation) [argument]
        (.outsideDomain operation.name argument domain)
  /-- The other spelling of the cosecant. -/
  | cosecant (argument : Float) (domain : String) :
      Blames (.unary .cosec) [argument]
        (.outsideDomain UnaryOperation.csc.name argument domain)
  | invalidPower (base exponent : Float) :
      Blames (.binary .power) [base, exponent] (.invalidPower base exponent)
  | invalidLogarithm (base value : Float) :
      Blames (.binary .logarithm) [base, value]
        (.invalidLogarithm base value)
  | negativeArgument (operation : UnaryOperation) (argument : Float) :
      Blames (.unary operation) [argument]
        (.negativeArgument operation.name argument)
  | fractionalArgument (operation : UnaryOperation) (argument : Float) :
      Blames (.unary operation) [argument]
        (.fractionalArgument operation.name argument)
  | overflow (operation : UnaryOperation) (argument : Float) :
      Blames (.unary operation) [argument]
        (.overflow operation.name argument)
  | excessOperator (operation : Operation) :
      Blames operation [] (.excessOperator operation.name)
  | missingSecondArgument (operation : BinaryOperation) (only : Float) :
      Blames (.binary operation) [only]
        (.missingSecondArgument operation.name)

/-- An operation fails on the last of the values: it is not defined for as
many as it needs, or there are fewer than it needs and it fails on all. -/
inductive FailsOn (library : Elementary) (operation : Operation) :
    List Float → List Float → CalculationError → Prop
  | undefined (others operands : List Float) (failure : CalculationError)
      (applied :
        operation.applyTo? library operands = some (.error failure)) :
      FailsOn library operation others operands failure
  | noOperand (needed : operation.arity ≠ 0) :
      FailsOn library operation [] [] (.excessOperator operation.name)
  | oneOperand (only : Float) (needed : operation.arity = 2) :
      FailsOn library operation [] [only]
        (.missingSecondArgument operation.name)

variable {library : Elementary}

/-! ## The errors of operations -/

theorem blames_of_factorial {argument : Float} {failure : CalculationError}
    (failed : factorial argument = .error failure) :
    Blames (.unary .factorial) [argument] failure := by
  unfold factorial at failed
  split at failed
  · cases failed
    exact .negativeArgument .factorial argument
  · split at failed
    · cases failed
      exact .fractionalArgument .factorial argument
    · split at failed
      · cases failed
        exact .overflow .factorial argument
      · split at failed
        · cases failed
        · cases failed
          exact .overflow .factorial argument

theorem blames_of_power {base exponent : Float}
    {failure : CalculationError}
    (failed : power library base exponent = .error failure) :
    Blames (.binary .power) [base, exponent] failure := by
  unfold power at failed
  split at failed
  · cases failed
  · split at failed
    · cases failed
      exact .invalidPower base exponent
    · cases failed

theorem blames_of_logarithm {base value : Float}
    {failure : CalculationError}
    (failed : logarithm library base value = .error failure) :
    Blames (.binary .logarithm) [base, value] failure := by
  unfold logarithm at failed
  split at failed
  · cases failed
    exact .invalidLogarithm base value
  · cases failed

section

variable {condition : Prop} [Decidable condition] {value : Float}
  {fault failure : CalculationError}

theorem eq_of_refused_if
    (failed :
      (if condition then .error fault else .ok value) =
        (.error failure : Except CalculationError Float)) :
    failure = fault := by
  split at failed <;> cases failed
  rfl

theorem eq_of_refused_unless
    (failed :
      (if condition then .ok value else .error fault) =
        (.error failure : Except CalculationError Float)) :
    failure = fault := by
  split at failed <;> cases failed
  rfl

end

/-- An operation on one number blames itself, but for the cosecant.  Most of
them check the argument once, and then have a value. -/
theorem UnaryOperation.blames_of_apply {operation : UnaryOperation}
    {argument : Float} {failure : CalculationError}
    (failed : operation.apply library argument = .error failure) :
    Blames (.unary operation) [argument] failure := by
  cases operation with
  | factorial => exact blames_of_factorial failed
  | cosec =>
      obtain rfl := eq_of_refused_if failed
      exact .cosecant argument _
  | tan =>
      obtain rfl := eq_of_refused_if failed
      exact .outsideDomain .tan argument _
  | sec =>
      obtain rfl := eq_of_refused_if failed
      exact .outsideDomain .sec argument _
  | csc =>
      obtain rfl := eq_of_refused_if failed
      exact .outsideDomain .csc argument _
  | cot =>
      obtain rfl := eq_of_refused_if failed
      exact .outsideDomain .cot argument _
  | asin =>
      obtain rfl := eq_of_refused_unless failed
      exact .outsideDomain .asin argument _
  | acos =>
      obtain rfl := eq_of_refused_unless failed
      exact .outsideDomain .acos argument _
  | acosh =>
      obtain rfl := eq_of_refused_if failed
      exact .outsideDomain .acosh argument _
  | atanh =>
      obtain rfl := eq_of_refused_if failed
      exact .outsideDomain .atanh argument _
  | sqrt =>
      obtain rfl := eq_of_refused_if failed
      exact .outsideDomain .sqrt argument _
  | ln =>
      obtain rfl := eq_of_refused_if failed
      exact .outsideDomain .ln argument _
  | log2 =>
      obtain rfl := eq_of_refused_if failed
      exact .outsideDomain .log2 argument _
  | log =>
      obtain rfl := eq_of_refused_if failed
      exact .outsideDomain .log argument _
  | _ => cases failed

theorem BinaryOperation.blames_of_apply {operation : BinaryOperation}
    {first second : Float} {failure : CalculationError}
    (failed : operation.apply library first second = .error failure) :
    Blames (.binary operation) [first, second] failure := by
  cases operation with
  | divide =>
      simp only [apply] at failed
      split at failed
      · next zero =>
          cases failed
          exact .divisionByZero .divide first second zero
      · cases failed
  | remainder =>
      simp only [apply] at failed
      split at failed
      · next zero =>
          cases failed
          exact .divisionByZero .remainder first second zero
      · cases failed
  | power => exact blames_of_power failed
  | logarithm => exact blames_of_logarithm failed
  | _ => cases failed

/-- An operation that is not defined for its operands blames itself. -/
theorem blames_of_applyTo? {operation : Operation} {operands : List Float}
    {failure : CalculationError}
    (applied :
      operation.applyTo? library operands = some (.error failure)) :
    Blames operation operands failure := by
  unfold Operation.applyTo? at applied
  split at applied
  · cases applied
  · exact UnaryOperation.blames_of_apply (Option.some.inj applied)
  · exact BinaryOperation.blames_of_apply (Option.some.inj applied)
  · cases applied

theorem FailsOn.blames {operation : Operation}
    {others operands : List Float} {failure : CalculationError}
    (fails : FailsOn library operation others operands failure) :
    Blames operation operands failure := by
  cases fails with
  | undefined _ _ _ applied => exact blames_of_applyTo? applied
  | noOperand needed => exact .excessOperator operation
  | oneOperand only needed =>
      rcases operation with named | operation | operation
      · cases needed
      · cases needed
      · exact .missingSecondArgument operation only

/-! ## From the error back to the text -/

/-- What blames an operation tells it. -/
theorem Blames.tellsOperation {operation : Operation}
    {operands : List Float} {failure : CalculationError}
    (blames : Blames operation operands failure) :
    failure.tellsOperation = true := by
  cases blames <;> rfl

/-- A token that fails and is no bracket is an operation, and fails on the
latest of the values. -/
theorem Refuses.exists_failsOn {values : List Float} {token : Token}
    {failure : CalculationError}
    (refuses : Refuses library values token failure)
    (noBracket : token.isBracket = false) :
    ∃ used others operands,
      token = .symbol used ∧ values = others ++ operands ∧
        FailsOn library used.operation others operands failure := by
  cases refuses with
  | noOperand used needed =>
      exact ⟨used, [], [], rfl, rfl, .noOperand needed⟩
  | oneOperand used needed only =>
      exact ⟨used, [], [only], rfl, rfl, .oneOperand only needed⟩
  | unaryFails role operation others argument failure fails =>
      exact ⟨⟨role, .unary operation⟩, others, [argument], rfl, rfl,
        .undefined _ _ _ (congrArg some fails)⟩
  | binaryFails role operation others first second failure fails =>
      exact ⟨⟨role, .binary operation⟩, others, [first, second], rfl, rfl,
        .undefined _ _ _ (congrArg some fails)⟩
  | openBracket values => cases noBracket
  | closeBracket values => cases noBracket

/-- A text that cannot be read tells no operation. -/
theorem tellsOperation_of_tokenize {text : String}
    {failure : CalculationError}
    (failed : tokenize text = .error failure) :
    failure.tellsOperation = false := by
  rcases Outcome.bind_eq_error_iff.mp failed with
    faulty | ⟨lexemes, -, refused⟩
  · cases Lexeme.lexemeFault_of_scan faulty <;> rfl
  · rcases checkBrackets_eq_error_iff.mp refused with
      ⟨-, rfl⟩ | ⟨-, rfl⟩ | ⟨-, rfl⟩ <;> rfl

theorem tellsOperation_leftOver (count : Nat) :
    (leftOver count).tellsOperation = false := by
  unfold leftOver
  split <;> rfl

/-- If a calculation fails with an error that tells an operation, then an
operation was written that is reached when all before it have values, that
fails on the latest of these values, and that the error blames. -/
theorem exists_blamed_of_calculate_eq_error {text : String}
    {failure : CalculationError}
    (failed : calculate library text = .error failure)
    (tells : failure.tellsOperation = true) :
    ∃ tokens forest used after others operands,
      tokenize text = .ok tokens ∧ .symbol used ∈ tokens ∧
        toReversePolish tokens =
          .ok (Forest.postorder forest ++ .symbol used :: after) ∧
        forest.values library = .ok (others ++ operands) ∧
        FailsOn library used.operation others operands failure ∧
        Blames used.operation operands failure := by
  rw [calculate, Outcome.bind_eq_error_iff] at failed
  rcases failed with unread | ⟨tokens, scanned, failed⟩
  · rw [tellsOperation_of_tokenize unread] at tells
    cases tells
  rcases Outcome.bind_eq_error_iff.mp failed with
    unordered | ⟨ordered, converted, failed⟩
  · obtain ⟨rfl, -⟩ := (toReversePolish_eq_error_iff _ _).mp unordered
    cases tells
  rcases evaluate_eq_error_iff.mp failed with
    ⟨forest, token, after, rfl, values, evaluated, refuses⟩ |
    ⟨forest, found, -, -, -, rfl⟩
  · obtain ⟨written, noBracket⟩ :=
      (mem_iff_of_toReversePolish_eq_ok converted).mp
        (List.mem_append_right _ List.mem_cons_self)
    obtain ⟨used, others, operands, rfl, rfl, fails⟩ :=
      refuses.exists_failsOn noBracket
    exact ⟨tokens, forest, used, after, others, operands, scanned, written,
      converted, evaluated, fails, fails.blames⟩
  · rw [tellsOperation_leftOver] at tells
    cases tells

/-- The quotient is blamed for a division by zero, with its dividend. -/
theorem exists_blamed_quotient :
    calculate Elementary.system "1/0" =
        .error (.divisionByZero "/" 1) ∧
      ∃ tokens forest used after others operands,
        tokenize "1/0" = .ok tokens ∧ .symbol used ∈ tokens ∧
          toReversePolish tokens =
            .ok (Forest.postorder forest ++ .symbol used :: after) ∧
          forest.values Elementary.system = .ok (others ++ operands) ∧
          FailsOn Elementary.system used.operation others operands
            (.divisionByZero "/" 1) ∧
          Blames used.operation operands (.divisionByZero "/" 1) := by
  have failed : calculate Elementary.system "1/0" =
      .error (.divisionByZero "/" 1) := by
    decide +kernel
  exact ⟨failed, exists_blamed_of_calculate_eq_error failed rfl⟩

/-- The cosecant of zero blames a name that is not written, whatever the
other functions are. -/
theorem calculate_cosec_blames_csc :
    ∃ library text tokens,
      tokenize text = .ok tokens ∧
        calculate library text =
          .error (.outsideDomain "csc" 0 "sin(x) != 0") ∧
        ∀ used, .symbol used ∈ tokens → used.operation.name ≠ "csc" := by
  let library := { Elementary.system with sin := fun argument => argument }
  have scanned : tokenize "cosec(0)" =
      .ok [.function (.unary .cosec), .openBracket, .number 0,
        .closeBracket] := by
    decide +kernel
  have failed : calculate library "cosec(0)" =
      .error (.outsideDomain "csc" 0 "sin(x) != 0") := by
    decide +kernel
  refine ⟨library, "cosec(0)", _, scanned, failed, ?_⟩
  intro used written
  obtain rfl : used = ⟨.function, .unary .cosec⟩ := by
    simpa using written
  decide

end Calculator

import Calculator.Proofs.Binary64.Value
import Calculator.Proofs.Evaluation.Bracketed
import Calculator.Proofs.Lexing.Assembly
import Calculator.Proofs.Precedence.Value

/-!
# A minus in front of a function call

A function releases what waits and binds at least as tightly, before its own
operand is known.  A negation binds more tightly than a function.  So the minus
in front of a call does not wait for the call: it passes first, and is applied to
the operand that stands before it.

Where nothing stands before it, the text fails.  Where a number and another
minus stand before it, the number is negated in the place of the call, and the
call is subtracted from it; brackets around the minus and the call change
nothing, since they do not separate the two.
-/

namespace Calculator

/-- The text of a function call. -/
def callText (function : UnaryOperation) (argument : String) : String :=
  function.name ++ "(" ++ argument ++ ")"

variable {function : UnaryOperation} {argument : String}

theorem toList_callText :
    (callText function argument).toList =
      function.name.toList ++ '(' :: (argument.toList ++ [')']) := by
  simp [callText]

/-! ## Scanning a call -/

/-- The name of a function is a lexeme before its bracket. -/
theorem standsBefore_function
    (listed : function.name ∈ Operation.functionNames) (rest : List Char) :
    (Lexeme.name (.unary function)).StandsBefore ('(' :: rest) :=
  ⟨nameBefore_function listed (stops_cons.mpr rfl),
    fun _ => ⟨[], rest, by simp [Blank], rfl⟩⟩

/-- The lexemes of a call begin with the function and its bracket. -/
theorem exists_scan_callText
    (listed : function.name ∈ Operation.functionNames)
    {lexemes : List Lexeme}
    (scanned : Lexeme.scan (callText function argument).toList =
      .ok lexemes) :
    ∃ others, Lexeme.scan (argument.toList ++ [')']) = .ok others ∧
      lexemes = .name (.unary function) :: .openBracket :: others := by
  rw [toList_callText] at scanned
  obtain ⟨bracket, bracketScanned, rfl⟩ :=
    (Lexeme.scan_spelling_append_iff (.name (.unary function))
      (standsBefore_function listed _)).mp scanned
  obtain ⟨others, othersScanned, rfl⟩ :=
    (Lexeme.scan_spelling_append_iff .openBracket trivial).mp bracketScanned
  exact ⟨others, othersScanned, rfl⟩

/-- A call is scanned into the function, its bracket and what follows. -/
theorem exists_tokenize_callText
    (listed : function.name ∈ Operation.functionNames) {tokens : List Token}
    (scanned : tokenize (callText function argument) = .ok tokens) :
    ∃ rest, tokens = .function (.unary function) :: .openBracket :: rest ∧
      ∀ inner, tokenize argument = .ok inner →
        rest = inner ++ [.closeBracket] := by
  obtain ⟨lexemes, found, -, -, rfl⟩ := tokenize_eq_ok_iff_scan.mp scanned
  obtain ⟨others, othersFound, rfl⟩ := exists_scan_callText listed found
  refine ⟨Lexeme.tokens false others, rfl, fun inner innerScanned => ?_⟩
  obtain ⟨inside, insideFound, -, -, rfl⟩ :=
    tokenize_eq_ok_iff_scan.mp innerScanned
  have closed := Lexeme.scan_append_sign insideFound .closeBracket rfl
    Lexeme.scan_nil
  have same : others = inside ++ [.closeBracket] :=
    Except.ok.inj (othersFound.symm.trans closed)
  rw [same, Lexeme.tokens_append_closeBracket, Lexeme.tokens_nil]

/-! ## Scanning a minus before a text -/

section

variable {text : String} {tokens : List Token}
  (scanned : tokenize text = .ok tokens)

include scanned

/-- Nothing stands before the minus, so it is a negation. -/
theorem tokenize_minus :
    tokenize ("-" ++ text) = .ok (.operator (.unary .negate) :: tokens) := by
  obtain ⟨lexemes, found, -, brackets, rfl⟩ :=
    tokenize_eq_ok_iff_scan.mp scanned
  refine tokenize_eq_ok_iff_scan.mpr
    ⟨.mark .minus :: lexemes, ?_, by simp, by simpa using brackets, rfl⟩
  simpa [Lexeme.spelling, Mark.toChar] using
    Lexeme.scan_sign_append (.mark .minus) rfl found

variable {written : Numeral} (literal : written.Literal)
  (finite : written.Finite)

include literal finite

/-- The first minus after a number is a subtraction, the second one a
negation. -/
theorem tokenize_number_minus_minus :
    tokenize (String.ofList written.spelling ++ " - -" ++ text) =
      .ok (.number written.toFloat :: .operator (.binary .subtract) ::
        .operator (.unary .negate) :: tokens) := by
  obtain ⟨lexemes, found, -, brackets, rfl⟩ :=
    tokenize_eq_ok_iff_scan.mp scanned
  refine tokenize_eq_ok_iff_scan.mpr
    ⟨.numeral written :: .mark .minus :: .mark .minus :: lexemes, ?_,
      by simp, by simpa using brackets, rfl⟩
  have space : Blank [' '] := by simp [Blank]; rfl
  have second := Lexeme.scan_gap_append space
    (Lexeme.scan_sign_append (.mark .minus) rfl found)
  have first := Lexeme.scan_gap_append space
    (Lexeme.scan_sign_append (.mark .minus) rfl second)
  have whole := Lexeme.scan_numeral_append literal finite
    (stops_cons.mpr rfl) first
  simpa [Lexeme.spelling, Mark.toChar] using whole

/-- A negated number in brackets, and a subtraction after it. -/
theorem tokenize_negated_number_minus :
    tokenize ("(-" ++ String.ofList written.spelling ++ ")-" ++ text) =
      .ok (.openBracket :: .operator (.unary .negate) ::
        .number written.toFloat :: .closeBracket ::
          .operator (.binary .subtract) :: tokens) := by
  obtain ⟨lexemes, found, -, brackets, rfl⟩ :=
    tokenize_eq_ok_iff_scan.mp scanned
  refine tokenize_eq_ok_iff_scan.mpr
    ⟨.openBracket :: .mark .minus :: .numeral written :: .closeBracket ::
      .mark .minus :: lexemes, ?_, by simp, by simpa using brackets, rfl⟩
  have closed := Lexeme.scan_sign_append .closeBracket rfl
    (Lexeme.scan_sign_append (.mark .minus) rfl found)
  have number := Lexeme.scan_numeral_append literal finite
    (stops_goesOn_spelling rfl _) closed
  have whole := Lexeme.scan_sign_append .openBracket rfl
    (Lexeme.scan_sign_append (.mark .minus) rfl number)
  simpa [Lexeme.spelling, Mark.toChar] using whole

/-- The second minus and the text in brackets. -/
theorem tokenize_number_minus_bracket :
    tokenize
        (String.ofList written.spelling ++ " - (-" ++ text ++ ")") =
      .ok (.number written.toFloat :: .operator (.binary .subtract) ::
        .openBracket :: .operator (.unary .negate) ::
          (tokens ++ [Token.closeBracket])) := by
  obtain ⟨lexemes, found, -, brackets, rfl⟩ :=
    tokenize_eq_ok_iff_scan.mp scanned
  refine tokenize_eq_ok_iff_scan.mpr
    ⟨.numeral written :: .mark .minus :: .openBracket :: .mark .minus ::
      (lexemes ++ [.closeBracket]), ?_, by simp, by simpa using brackets, ?_⟩
  · have space : Blank [' '] := by simp [Blank]; rfl
    have closed := Lexeme.scan_append_sign found .closeBracket rfl
      Lexeme.scan_nil
    have inner := Lexeme.scan_gap_append space
      (Lexeme.scan_sign_append .openBracket rfl
        (Lexeme.scan_sign_append (.mark .minus) rfl closed))
    have outer := Lexeme.scan_gap_append space
      (Lexeme.scan_sign_append (.mark .minus) rfl inner)
    have whole := Lexeme.scan_numeral_append literal finite
      (stops_cons.mpr rfl) outer
    simpa [Lexeme.spelling, Mark.toChar] using whole
  · simp only [Lexeme.tokens_cons, Lexeme.endsOperand,
      Lexeme.tokens_append_closeBracket]
    rfl

end

/-! ## Converting a negated call -/

namespace Conversion

variable {conversion : Conversion}

/-- A symbol that binds more tightly than all that wait releases nothing. -/
theorem run_symbol_of_waitsBelow {used : Symbol}
    (waits : used.role ≠ .constant)
    (below : conversion.WaitsBelow used.priority) (rest : List Token) :
    conversion.run (.symbol used :: rest) =
      (conversion.advance [] [used]).run rest := by
  have awaited : (conversion.advance [] []).await used =
      conversion.advance [] [used] :=
    await_advance below (by simp)
  rw [advance_nil] at awaited
  rw [run_cons_of_push_eq_ok (push_symbol_of_role_ne_constant _ waits),
    awaited]

theorem run_number (value : Float) (rest : List Token) :
    conversion.run (.number value :: rest) =
      (conversion.advance [.number value] []).run rest := by
  rw [run_cons_of_push_eq_ok (push_number conversion value)]
  simp [advance]

section

variable (listed : function.name ∈ Operation.functionNames)

include listed

theorem run_function (below : conversion.WaitsBelow 2) (rest : List Token) :
    conversion.run (.function (.unary function) :: rest) =
      (conversion.advance [] [⟨.function, .unary function⟩]).run rest := by
  refine run_symbol_of_waitsBelow (by simp) ?_ rest
  rw [Symbol.priority, Derivation.priority_function listed]
  exact below

/-- The negation before a function passes, and the function waits. -/
theorem run_negation_function (below : conversion.WaitsBelow 2)
    (rest : List Token) :
    conversion.run
        (.operator (.unary .negate) :: .function (.unary function) :: rest) =
      (conversion.advance [.operator (.unary .negate)]
        [⟨.function, .unary function⟩]).run rest := by
  have priority :
      Symbol.priority ⟨.function, .unary function⟩ = 2 :=
    Derivation.priority_function listed
  have awaited :
      (conversion.advance [] [⟨.operator, .unary .negate⟩]).await
          ⟨.function, .unary function⟩ =
        conversion.advance [.operator (.unary .negate)]
          [⟨.function, .unary function⟩] :=
    await_advance (priority.symm ▸ below) (by rw [priority]; decide)
  rw [run_symbol_of_waitsBelow (by simp) (below.mono (by decide)),
    run_cons_of_push_eq_ok (push_symbol_of_role_ne_constant _ (by simp)),
    awaited]

end

end Conversion

open Conversion

section

variable (listed : function.name ∈ Operation.functionNames)

theorem waitsBelow_of_waiting_eq_nil {conversion : Conversion}
    (nothing : conversion.waiting = []) (threshold : Nat) :
    conversion.WaitsBelow threshold := by
  intro used waits
  rw [nothing] at waits
  cases waits

/-- A number and a subtraction leave the subtraction waiting. -/
theorem run_number_minus (value : Float) (rest : List Token) :
    start.run (.number value :: .operator (.binary .subtract) :: rest) =
      (start.advance [.number value]
        [⟨.operator, .binary .subtract⟩]).run rest := by
  rw [run_number, run_symbol_of_waitsBelow (by simp)
    (waitsBelow_of_waiting_eq_nil rfl _)]
  rfl

theorem waitsBelow_number_minus (passed : List Token) :
    (start.advance passed [⟨.operator, .binary .subtract⟩]).WaitsBelow 2 := by
  intro used waits
  obtain rfl := List.mem_singleton.mp waits
  decide

include listed

variable {rest output : List Token}

/-- The negation passes before all tokens of the call. -/
theorem toReversePolish_negated_call
    (converted : toReversePolish (.function (.unary function) :: rest) =
      .ok output) :
    toReversePolish
        (.operator (.unary .negate) :: .function (.unary function) :: rest) =
      .ok (.operator (.unary .negate) :: output) := by
  have below : start.WaitsBelow 2 := waitsBelow_of_waiting_eq_nil rfl 2
  rw [toReversePolish_eq_run, run_function listed below] at converted
  rw [toReversePolish_eq_run, run_negation_function listed below]
  exact run_framed #[.operator (.unary .negate)] converted

/-- The number before the two minus signs is negated. -/
theorem toReversePolish_number_minus_negated_call (value : Float)
    (rest : List Token) :
    toReversePolish
        (.number value :: .operator (.binary .subtract) ::
          .operator (.unary .negate) :: .function (.unary function) :: rest) =
      toReversePolish
        (.openBracket :: .operator (.unary .negate) :: .number value ::
          .closeBracket :: .operator (.binary .subtract) ::
            .function (.unary function) :: rest) := by
  have negated : toReversePolish
      [.operator (.unary .negate), .number value] =
        .ok [.number value, .operator (.unary .negate)] := rfl
  have group := run_brackets start
    (.operator (.binary .subtract) :: .function (.unary function) :: rest)
    negated
  rw [toReversePolish_eq_run, toReversePolish_eq_run, run_number_minus,
    run_negation_function listed (waitsBelow_number_minus _)]
  refine Eq.trans ?_ group.symm
  rw [run_symbol_of_waitsBelow (by simp)
    (waitsBelow_of_waiting_eq_nil rfl _)]
  exact (run_function listed
    (waitsBelow_number_minus [.number value, .operator (.unary .negate)])
    rest).symm

/-- In brackets too, the negation passes before the call. -/
theorem toReversePolish_number_minus_bracket
    (converted : toReversePolish (.function (.unary function) :: rest) =
      .ok output)
    (value : Float) :
    toReversePolish
        (.number value :: .operator (.binary .subtract) :: .openBracket ::
          .operator (.unary .negate) ::
            (.function (.unary function) :: rest ++ [Token.closeBracket])) =
      .ok (.number value :: .operator (.unary .negate) ::
        (output ++ [Token.operator (.binary .subtract)])) := by
  have group := run_brackets
    (start.advance [.number value] [⟨.operator, .binary .subtract⟩]) []
    (toReversePolish_negated_call listed converted)
  rw [toReversePolish_eq_run, run_number_minus]
  refine Eq.trans group (run_eq_ok_iff.mpr ⟨_, rfl, rfl, ?_⟩)
  simp [advance, start]

/-- A group in brackets passes before the function, and the function before the
subtraction. -/
theorem toReversePolish_number_minus_nested {inner ordered : List Token}
    (converted : toReversePolish inner = .ok ordered) (value : Float) :
    toReversePolish
        (.function (.unary function) :: .openBracket ::
          (inner ++ [Token.closeBracket])) =
        .ok (ordered ++ [Token.function (.unary function)]) ∧
      toReversePolish
          (.number value :: .operator (.binary .subtract) ::
            .operator (.unary .negate) :: .function (.unary function) ::
              .openBracket :: (inner ++ [Token.closeBracket])) =
        .ok (.number value :: .operator (.unary .negate) ::
          (ordered ++ [Token.function (.unary function),
            .operator (.binary .subtract)])) := by
  constructor
  · rw [toReversePolish_eq_run,
      run_function listed (waitsBelow_of_waiting_eq_nil rfl 2),
      run_brackets _ [] converted]
    refine run_eq_ok_iff.mpr ⟨_, rfl, rfl, ?_⟩
    simp [advance, start]
  · rw [toReversePolish_eq_run, run_number_minus,
      run_negation_function listed (waitsBelow_number_minus _),
      run_brackets _ [] converted]
    refine run_eq_ok_iff.mpr ⟨_, rfl, rfl, ?_⟩
    simp [advance, start]

end

/-! ## The value of a negated call -/

/-- A negation that passes first has no operand. -/
theorem evaluate_negate_cons (library : Elementary) (ordered : List Token) :
    evaluate library (.operator (.unary .negate) :: ordered) =
      .error (.excessOperator "neg") :=
  rfl

open Binary64 in
/-- A literal is negated without noise, unless it is noise itself. -/
theorem withoutNoise_neg_numeral {written : Numeral}
    (finite : written.Finite) (large : negligible ≤ written.toFloat) :
    withoutNoise (-written.toFloat) = -written.toFloat := by
  obtain ⟨rank, found⟩ := finite
  have isFinite := isFinite_iff.mpr ⟨_, _, found⟩
  have magnitude : (-written.toFloat).abs = written.toFloat :=
    eq_of_ofFloat_eq ((ofFloat_abs (ofFloat_neg found)).trans found.symm)
      (by simp [ofFloat_abs (ofFloat_neg found)])
  have small : negligible.isFinite = true := by decide
  refine if_neg ?_
  rw [magnitude, lt_iff_toRat_lt isFinite small, not_lt,
    ← le_iff_toRat_le small isFinite]
  exact large

/-- A negated number minus the value of a call. -/
theorem evaluate_negated_number_minus {library : Elementary}
    {output : List Token} {value : Float}
    (ran : ∀ stack, runValues library stack output = .ok (value :: stack))
    {written : Numeral} (finite : written.Finite)
    (large : negligible ≤ written.toFloat) :
    evaluate library
        (.number written.toFloat :: .operator (.unary .negate) ::
          (output ++ [Token.operator (.binary .subtract)])) =
      .ok (withoutNoise (-written.toFloat - value)) := by
  have negated : runValues library []
      [.number written.toFloat, .operator (.unary .negate)] =
        .ok [-written.toFloat] := by
    rw [← withoutNoise_neg_numeral finite large]
    rfl
  have split : Token.number written.toFloat ::
      .operator (.unary .negate) ::
        (output ++ [Token.operator (.binary .subtract)]) =
      [Token.number written.toFloat, .operator (.unary .negate)] ++
        (output ++ [Token.operator (.binary .subtract)]) :=
    rfl
  rw [evaluate_eq_runValues, split, runValues_append, negated]
  change (runValues library _ _ >>= onlyValue) = _
  rw [runValues_append, ran]
  change Except.ok (withoutNoise (withoutNoise _)) = _
  rw [withoutNoise_withoutNoise]

/-- A minus in front of a function call does not negate the call: it negates the
number before it, and fails where there is none. -/
theorem calculate_negated_call (library : Elementary)
    (function : UnaryOperation) (argument : String) (value : Float)
    (listed : function.name ∈ Operation.functionNames)
    (valued : calculate library (callText function argument) = .ok value) :
    calculate library ("-" ++ callText function argument) =
        .error (.excessOperator "neg") ∧
      ∀ written : Numeral, written.Literal → written.Finite →
        negligible ≤ written.toFloat →
          calculate library
              (String.ofList written.spelling ++ " - -" ++
                callText function argument) =
            calculate library
              ("(-" ++ String.ofList written.spelling ++ ")-" ++
                callText function argument) ∧
          calculate library
              (String.ofList written.spelling ++ " - (-" ++
                callText function argument ++ ")") =
            .ok (withoutNoise (-written.toFloat - value)) ∧
          ∀ inner, calculate library argument = .ok inner →
            calculate library
                (String.ofList written.spelling ++ " - -" ++
                  callText function argument) =
              .ok (withoutNoise (-written.toFloat - value)) := by
  obtain ⟨tokens, scanned, ordered⟩ := Outcome.bind_eq_ok_iff.mp valued
  obtain ⟨rest, rfl, nested⟩ := exists_tokenize_callText listed scanned
  obtain ⟨_, output, same, converted, ran⟩ :=
    exists_runValues_of_settled valued
      (.inl ⟨_, ⟨.function, .unary function⟩, scanned, by simp, by simp⟩)
  obtain rfl := Except.ok.inj (scanned.symm.trans same)
  refine ⟨?_, fun written literal finite large => ⟨?_, ?_, ?_⟩⟩
  · rw [calculate_eq_evaluate (tokenize_minus scanned)
      (toReversePolish_negated_call listed converted)]
    exact evaluate_negate_cons library output
  · rw [calculate, calculate,
      tokenize_number_minus_minus scanned literal finite,
      tokenize_negated_number_minus scanned literal finite]
    change (toReversePolish _ >>= evaluate library) =
      (toReversePolish _ >>= evaluate library)
    rw [toReversePolish_number_minus_negated_call listed]
  · rw [calculate_eq_evaluate
      (tokenize_number_minus_bracket scanned literal finite)
      (toReversePolish_number_minus_bracket listed converted _)]
    exact evaluate_negated_number_minus ran finite large
  · intro inner innerValued
    obtain ⟨innerTokens, tree, -, innerScanned, innerConverted, -, -⟩ :=
      exists_tree_of_calculate innerValued
    obtain rfl := nested innerTokens innerScanned
    obtain ⟨alone, afterNumber⟩ := toReversePolish_number_minus_nested listed
      innerConverted written.toFloat
    obtain rfl := Except.ok.inj (converted.symm.trans alone)
    rw [calculate_eq_evaluate
      (tokenize_number_minus_minus scanned literal finite) afterNumber]
    have whole := evaluate_negated_number_minus ran finite large
    rw [List.append_assoc] at whole
    exact whole

/-- The number five is negated in the place of the absolute value. -/
theorem calculate_negated_call_abs :
    calculate Elementary.system "abs(3)" = .ok 3 ∧
      calculate Elementary.system "-abs(3)" =
        .error (.excessOperator "neg") ∧
      calculate Elementary.system "5 - -abs(3)" = .ok (-8) := by
  have valued : calculate Elementary.system (callText .abs "3") = .ok 3 := by
    decide +kernel
  have argument : calculate Elementary.system "3" = .ok 3 := by
    decide +kernel
  obtain ⟨fails, numbers⟩ := calculate_negated_call Elementary.system .abs "3"
    3 (by decide) valued
  have literal : Numeral.Literal ⟨['5'], none, none⟩ :=
    ⟨by simp, by simp, by simp, by simp⟩
  have finite : Numeral.Finite ⟨['5'], none, none⟩ :=
    (Numeral.inRange_iff_finite _).mp (by decide +kernel)
  obtain ⟨-, -, nested⟩ := numbers _ literal finite (by decide +kernel)
  have number := nested 3 argument
  have text : callText .abs "3" = "abs(3)" := by decide +kernel
  have negated : "-" ++ callText .abs "3" = "-abs(3)" := by decide +kernel
  have subtracted : String.ofList (Numeral.spelling ⟨['5'], none, none⟩) ++
      " - -" ++ callText .abs "3" = "5 - -abs(3)" := by
    decide +kernel
  rw [text] at valued
  rw [negated] at fails
  rw [subtracted] at number
  exact ⟨valued, fails, number.trans (by decide +kernel)⟩

/-- The call is negated neither alone nor after another minus. -/
theorem calculate_negated_call_ne_negation :
    calculate Elementary.system (callText .abs "3") = .ok 3 ∧
      calculate Elementary.system ("-" ++ callText .abs "3") ≠
        .ok (withoutNoise (-3)) ∧
      calculate Elementary.system ("5" ++ " - -" ++ callText .abs "3") ≠
        .ok (withoutNoise (5 - withoutNoise (-3))) := by
  decide +kernel

end Calculator

import Calculator.Proofs.Conversion.Balance
import Calculator.Proofs.Precedence.Derivation

/-!
# The value of a derivation

A text that spells a derivation has the value of the tree that the derivation
stands for.

The tokens of a derivation are converted with a threshold for every level of
the grammar.  If all symbols that wait already are weaker than the threshold,
they stay where they are.  Of the derivation's own symbols some may still wait
at its end, and these bind at least as tightly as the threshold says.  What
has passed and what waits, taken together, is the tree in reverse Polish
order.
-/

namespace Calculator

/-- The priority that the symbols of a level may still wait with. -/
def Level.threshold : Level → Nat
  | atom => 4
  | signed => 3
  | group => 3
  | factor => 2
  | power => 2
  | product => 1
  | sum => 0

namespace Conversion

/-- Releases tokens, and lets symbols wait above those that wait already. -/
def advance (conversion : Conversion) (passed : List Token)
    (pending : List Symbol) : Conversion :=
  { conversion with
    released := conversion.released ++ passed
    waiting := pending ++ conversion.waiting }

/-- What waits inside the innermost bracket is weaker than the threshold. -/
def WaitsBelow (conversion : Conversion) (threshold : Nat) : Prop :=
  ∀ used ∈ conversion.waiting, used.priority < threshold

/-- Taking in the tokens up to the rest lists an expression: some of its
tokens have passed, and the others wait with at least the threshold's
priority. -/
def Lists (conversion : Conversion) (threshold : Nat)
    (ordered tokens rest : List Token) : Prop :=
  ∃ passed pending,
    (∀ used ∈ pending, threshold ≤ used.priority) ∧
      passed ++ pending.map Token.symbol = ordered ∧
        conversion.run tokens =
          (conversion.advance passed pending).run rest

section

variable {conversion : Conversion} {threshold : Nat}
  {ordered others tokens between rest : List Token}

theorem released_append_append (released : Array Token)
    (passed others : List Token) :
    released ++ passed ++ others = released ++ (passed ++ others) := by
  apply Array.ext'
  simp

@[simp]
theorem advance_nil (conversion : Conversion) :
    conversion.advance [] [] = conversion := by
  simp [advance]

theorem advance_advance (passed others : List Token)
    (pending above : List Symbol) :
    (conversion.advance passed pending).advance others above =
      conversion.advance (passed ++ others) (above ++ pending) := by
  simp [advance, released_append_append]

theorem waitsBelow_advance {passed : List Token} {pending : List Symbol}
    (below : conversion.WaitsBelow threshold)
    (pendingBelow : ∀ used ∈ pending, used.priority < threshold) :
    (conversion.advance passed pending).WaitsBelow threshold := by
  intro used waits
  rcases List.mem_append.mp waits with isPending | isWaiting
  · exact pendingBelow used isPending
  · exact below used isWaiting

theorem WaitsBelow.mono {higher : Nat}
    (below : conversion.WaitsBelow threshold) (order : threshold ≤ higher) :
    conversion.WaitsBelow higher := by
  intro used waits
  exact Nat.lt_of_lt_of_le (below used waits) order

/-- All symbols are weaker than the threshold of an atom. -/
theorem waitsBelow_atom (conversion : Conversion) :
    conversion.WaitsBelow Level.atom.threshold := by
  intro used waits
  exact Nat.lt_succ_of_le used.operation.priority_le

/-- A symbol releases what waits at its priority, and stops at the weaker
ones. -/
theorem await_advance {passed : List Token} {pending : List Symbol}
    {used : Symbol} (below : conversion.WaitsBelow used.priority)
    (above : ∀ other ∈ pending, used.priority ≤ other.priority) :
    (conversion.advance passed pending).await used =
      conversion.advance (passed ++ pending.map Token.symbol) [used] := by
  have inside : ∀ other ∈ pending,
      decide (used.priority ≤ other.priority) = true := by
    intro other isPending
    exact decide_eq_true (above other isPending)
  have takes : (pending ++ conversion.waiting).takeWhile
      (fun other => decide (used.priority ≤ other.priority)) = pending := by
    rw [List.takeWhile_append_of_pos inside]
    cases waiting : conversion.waiting with
    | nil => simp
    | cons first remaining =>
        have weaker := below first (by simp [waiting])
        rw [List.takeWhile_cons_of_neg (by simpa using weaker),
          List.append_nil]
  have leaves : (pending ++ conversion.waiting).dropWhile
      (fun other => decide (used.priority ≤ other.priority)) =
        conversion.waiting := by
    rw [List.dropWhile_append_of_pos inside]
    cases waiting : conversion.waiting with
    | nil => rfl
    | cons first remaining =>
        have weaker := below first (by simp [waiting])
        rw [List.dropWhile_cons_of_neg (by simpa using weaker)]
  simp [advance, await, release, takes, leaves, released_append_append]

/-! ## How expressions are listed -/

theorem Lists.refl (conversion : Conversion) (threshold : Nat)
    (tokens : List Token) :
    conversion.Lists threshold [] tokens tokens :=
  ⟨[], [], by simp, rfl, by simp⟩

theorem Lists.mono {higher : Nat}
    (lists : conversion.Lists higher ordered tokens rest)
    (order : threshold ≤ higher) :
    conversion.Lists threshold ordered tokens rest := by
  obtain ⟨passed, pending, above, same, run⟩ := lists
  refine ⟨passed, pending, ?_, same, run⟩
  intro used isPending
  exact Nat.le_trans order (above used isPending)

/-- An operand passes at once. -/
theorem lists_operand (threshold : Nat) (rest : List Token) {token : Token}
    (pushed : conversion.push token =
      .ok { conversion with
        released := conversion.released.push token }) :
    conversion.Lists threshold [token] (token :: rest) rest := by
  refine ⟨[token], [], by simp, rfl, ?_⟩
  rw [run_cons_of_push_eq_ok pushed]
  simp [advance]

/-- A closing bracket releases what its group has left waiting. -/
theorem Lists.brackets (threshold : Nat)
    (inner : Lists
      { conversion with
        waiting := []
        enclosing := conversion.waiting :: conversion.enclosing }
      0 ordered tokens (.closeBracket :: rest)) :
    conversion.Lists threshold ordered (.openBracket :: tokens) rest := by
  obtain ⟨passed, pending, -, rfl, run⟩ := inner
  refine ⟨passed ++ pending.map Token.symbol, [], by simp, by simp, ?_⟩
  rw [run_cons_of_push_eq_ok (push_openBracket _), run,
    run_cons_of_push_eq_ok
      (push_closeBracket_of_enclosing_eq_cons rfl)]
  simp [advance, release, released_append_append]

/-- After an atom nothing of it waits. -/
theorem Lists.append
    (first : conversion.Lists Level.atom.threshold ordered tokens between)
    (second : ∀ next : Conversion, next.WaitsBelow threshold →
      next.Lists threshold others between rest)
    (below : conversion.WaitsBelow threshold) :
    conversion.Lists threshold (ordered ++ others) tokens rest := by
  obtain ⟨passed, pending, above, rfl, run⟩ := first
  -- No priority reaches the threshold of an atom.
  obtain rfl : pending = [] := by
    rw [List.eq_nil_iff_forall_not_mem]
    intro used isPending
    exact Nat.not_lt.mpr (above used isPending)
      (Nat.lt_succ_of_le used.operation.priority_le)
  obtain ⟨otherPassed, otherPending, otherAbove, rfl, otherRun⟩ :=
    second (conversion.advance passed [])
      (waitsBelow_advance below (by simp))
  refine ⟨passed ++ otherPassed, otherPending, otherAbove, by simp, ?_⟩
  rw [run, otherRun, advance_advance, List.append_nil]

/-- A symbol stands after the operands that are listed before it and those
that follow it.  It waits for the latter, which bind tighter. -/
theorem Lists.await (used : Symbol) (waits : used.role ≠ .constant)
    (priority : used.priority = threshold)
    (first : conversion.Lists threshold ordered tokens
      (.symbol used :: between))
    (second : ∀ next : Conversion, next.WaitsBelow (threshold + 1) →
      next.Lists (threshold + 1) others between rest)
    (below : conversion.WaitsBelow threshold) :
    conversion.Lists threshold (ordered ++ (others ++ [.symbol used]))
      tokens rest := by
  subst priority
  obtain ⟨passed, pending, above, rfl, run⟩ := first
  obtain ⟨otherPassed, otherPending, otherAbove, rfl, otherRun⟩ :=
    second
      (conversion.advance (passed ++ pending.map Token.symbol) [used])
      (waitsBelow_advance (below.mono (Nat.le_succ _)) (by simp))
  refine ⟨passed ++ pending.map Token.symbol ++ otherPassed,
    otherPending ++ [used], ?_, by simp, ?_⟩
  · intro other isPending
    rcases List.mem_append.mp isPending with isOther | isUsed
    · exact Nat.le_of_succ_le (otherAbove other isOther)
    · rw [List.mem_singleton.mp isUsed]
  · rw [run, run_cons_of_push_eq_ok
      (push_symbol_of_role_ne_constant _ waits),
      await_advance below above, otherRun, advance_advance]

end

end Conversion

/-! ## Derivations are listed -/

namespace Derivation

open Conversion

theorem token_mark (sign : ProductSign) (afterOperand : Bool) :
    (Lexeme.mark sign.mark).token afterOperand =
      .operator (.binary sign.operation) := by
  cases sign <;> rfl

theorem priority_productSign (sign : ProductSign) :
    (Operation.binary sign.operation).priority = 1 := by
  cases sign <;> rfl

theorem priority_function {function : UnaryOperation}
    (listed : function.name ∈ Operation.functionNames) :
    (Operation.unary function).priority = 2 := by
  cases function with
  | negate => exact absurd listed (by decide)
  | factorial => exact absurd listed (by decide)
  | _ => rfl

/-- The tokens of a group do not depend on what stands before it. -/
theorem tokens_group {marked : Bool}
    (derivation : Derivation .group marked) (afterOperand : Bool)
    (rest : List Lexeme) :
    Lexeme.tokens afterOperand (derivation.lexemes ++ rest) =
      Lexeme.tokens false (derivation.lexemes ++ rest) := by
  obtain ⟨others, shape⟩ := derivation.exists_lexemes_group_eq_cons
  rw [shape]
  rfl

/-- The tokens of a derivation list its tree.  After a factorial a minus sign
would be a negation; after everything else it is a subtraction. -/
theorem lists_tokens {level : Level} {marked : Bool}
    (derivation : Derivation level marked) (conversion : Conversion)
    (rest : List Lexeme)
    (below : conversion.WaitsBelow level.threshold) :
    conversion.Lists level.threshold derivation.tree.postorder
      (Lexeme.tokens false (derivation.lexemes ++ rest))
      (Lexeme.tokens (!marked) rest) := by
  induction derivation generalizing conversion rest with
  | numeral written literal finite => exact lists_operand _ _ rfl
  | constant named => exact lists_operand _ _ rfl
  | bracketed inner ih =>
      rw [lexemes, List.cons_append, List.append_assoc]
      exact Lists.brackets _ (ih _ _ (by simp [WaitsBelow]))
  | plain atom ih =>
      exact (ih _ _ (waitsBelow_atom _)).mono (by decide)
  | negated atom ih =>
      exact Lists.await ⟨.operator, .unary .negate⟩ (by simp) rfl
        (Lists.refl _ _ _) (fun next _ => ih _ _ (waitsBelow_atom next)) below
  | factorial operand ih =>
      rw [lexemes, List.append_assoc]
      exact Lists.await ⟨.operator, .unary .factorial⟩ (by simp) rfl
        (ih _ _ below) (fun next _ => Lists.refl next _ _) below
  | group inner ih =>
      rw [lexemes, List.cons_append, List.append_assoc]
      exact Lists.brackets _ (ih _ _ (by simp [WaitsBelow]))
  | groupFactorial operand ih =>
      rw [lexemes, List.append_assoc]
      exact Lists.await ⟨.operator, .unary .factorial⟩ (by simp) rfl
        (ih _ _ below) (fun next _ => Lists.refl next _ _) below
  | factor operand ih =>
      exact (ih _ _ (below.mono (by decide))).mono (by decide)
  | application function listed argument ih =>
      exact Lists.await ⟨.function, .unary function⟩ (by simp)
        (priority_function listed) (Lists.refl _ _ _)
        (fun next nextBelow => ih _ _ nextBelow) below
  | logarithm base argument baseIH argumentIH =>
      rw [lexemes, List.cons_append, List.append_assoc, tree,
        ExpressionTree.postorder, ← List.append_assoc]
      refine Lists.await ⟨.function, .binary .logarithm⟩ (by simp) rfl
        (Lists.refl _ _ _) ?_ below
      intro next nextBelow
      -- The base ends an operand, which a bracket after it does not see.
      have first := baseIH next (argument.lexemes ++ rest)
        (waitsBelow_atom next)
      rw [tokens_group] at first
      exact first.append (fun after afterBelow => argumentIH _ _ afterBelow)
        nextBelow
  | power operand ih => exact ih _ _ below
  | raised base exponent baseIH exponentIH =>
      rw [lexemes, List.append_assoc]
      exact Lists.await ⟨.operator, .binary .power⟩ (by simp) rfl
        (baseIH _ _ below)
        (fun next nextBelow => exponentIH _ _ nextBelow) below
  | product operand ih =>
      exact (ih _ _ (below.mono (by decide))).mono (by decide)
  | multiplied sign first second firstIH secondIH =>
      have listed := firstIH conversion
        (.mark sign.mark :: (second.lexemes ++ rest)) below
      rw [Lexeme.tokens_cons, token_mark] at listed
      rw [lexemes, List.append_assoc]
      exact Lists.await ⟨.operator, .binary sign.operation⟩ (by simp)
        (priority_productSign sign) listed
        (fun next nextBelow => secondIH _ _ nextBelow) below
  | sum operand ih =>
      exact (ih _ _ (below.mono (by decide))).mono (by decide)
  | added first second firstIH secondIH =>
      rw [lexemes, List.append_assoc]
      exact Lists.await ⟨.operator, .binary .add⟩ (by simp) rfl
        (firstIH _ _ below)
        (fun next nextBelow => secondIH _ _ nextBelow) below
  | subtracted first second firstIH secondIH =>
      rw [lexemes, List.append_assoc]
      exact Lists.await ⟨.operator, .binary .subtract⟩ (by simp) rfl
        (firstIH _ _ below)
        (fun next nextBelow => secondIH _ _ nextBelow) below

/-- The tokens of a derivation in reverse Polish order are those of its
tree. -/
theorem toReversePolish_tokens {marked : Bool}
    (derivation : Derivation .sum marked) :
    toReversePolish (Lexeme.tokens false derivation.lexemes) =
      .ok derivation.tree.postorder := by
  have lists := derivation.lists_tokens Conversion.start []
    (by simp [WaitsBelow, Conversion.start])
  obtain ⟨passed, pending, -, same, run⟩ := lists
  rw [List.append_nil] at run
  rw [toReversePolish_eq_run, run, Lexeme.tokens_nil, run_nil, ← same]
  simp [finish, advance, release, Conversion.start]

end Derivation

/-- A tree in reverse Polish order has the value of the tree, without
noise. -/
theorem evaluate_postorder (library : Elementary) (tree : ExpressionTree) :
    evaluate library tree.postorder =
      (tree.value library).map withoutNoise := by
  rw [evaluate_eq_runValues, runValues_postorder]
  cases tree.value library with
  | error failure => rfl
  | ok value => rfl

/-- A text that spells a derivation has the value of the derivation, or fails
like the first operation that fails in it. -/
theorem calculate_eq_of_spells (library : Elementary) {marked : Bool}
    {derivation : Derivation .sum marked} {text : String}
    (spells : derivation.Spells text) :
    calculate library text =
      (derivation.tree.value library).map withoutNoise := by
  rw [calculate, spells.tokenize_eq]
  change (toReversePolish _ >>= evaluate library) = _
  rw [derivation.toReversePolish_tokens]
  exact evaluate_postorder library derivation.tree

/-- The factorial applies to the negation, and the power to both. -/
theorem calculate_power_of_negated_factorial :
    ∃ derivation : Derivation .sum true,
      derivation.Spells "2 ^ -e!" ∧
        derivation.tree =
          .binary .operator .power
            (.number (Numeral.mk ['2'] none none).toFloat)
            (.unary .operator .factorial
              (.unary .operator .negate (.constant .constant .e))) ∧
          calculate Elementary.system "2 ^ -e!" =
            (derivation.tree.value Elementary.system).map withoutNoise := by
  have literal : (Numeral.mk ['2'] none none).Literal :=
    ⟨by simp, by simp, by simp, by simp⟩
  have finite : (Numeral.mk ['2'] none none).Finite :=
    (Numeral.inRange_iff_finite _).mp (by decide +kernel)
  have spells : Derivation.Spells
      (.sum (.product (.raised
        (.power (.factor (.plain (.numeral _ literal finite))))
        (.factorial (.negated (.constant .e))))))
      "2 ^ -e!" :=
    ⟨⟨[⟨[], .numeral ⟨['2'], none, none⟩⟩, ⟨[' '], .mark .caret⟩,
        ⟨[' '], .mark .minus⟩, ⟨[], .name (.constant .e)⟩,
        ⟨[], .mark .exclamation⟩], []⟩,
      by decide, ⟨by simp [Blank, Text.isBlank, Text.blankRuns],
        by simp [Blank]⟩, rfl⟩
  exact ⟨_, spells, rfl, calculate_eq_of_spells Elementary.system spells⟩

end Calculator

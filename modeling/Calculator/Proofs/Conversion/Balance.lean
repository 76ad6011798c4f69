import Calculator.Expression.ReversePolish
import Calculator.Proofs.Conversion.Groups
import Calculator.Proofs.Outcome

/-!
# Conversion fails on unbalanced brackets only

Where brackets are already open, the tokens that follow have to close exactly
those, and to be properly nested otherwise.  A conversion succeeds on such
tokens and on no others, and it fails in one way only.
-/

namespace Calculator

/-- Behind as many open brackets as the depth says, the tokens close all of
them and never more than are open. -/
structure NestedInside (depth : Nat) (tokens : List Token) : Prop where
  prefixes : ∀ count,
    (tokens.take count).count .closeBracket ≤
      depth + (tokens.take count).count .openBracket
  total : depth + tokens.count .openBracket = tokens.count .closeBracket

/-- Some prefix of the tokens holds more closing than opening brackets, or all
tokens hold different numbers of them. -/
def Unbalanced (tokens : List Token) : Prop :=
  (∃ count,
      (tokens.take count).count .openBracket <
        (tokens.take count).count .closeBracket) ∨
    tokens.count .openBracket ≠ tokens.count .closeBracket

theorem nested_iff_not_unbalanced (tokens : List Token) :
    Nested tokens ↔ ¬ Unbalanced tokens := by
  constructor
  · rintro ⟨prefixes, total⟩ (⟨count, more⟩ | different)
    · exact Nat.not_lt.mpr (prefixes count) more
    · exact different total
  · intro balanced
    constructor
    · intro count
      exact Nat.not_lt.mp fun more => balanced (Or.inl ⟨count, more⟩)
    · exact not_not.mp fun different => balanced (Or.inr different)

theorem nestedInside_zero_iff (tokens : List Token) :
    NestedInside 0 tokens ↔ Nested tokens := by
  constructor
  · rintro ⟨prefixes, total⟩
    exact ⟨by simpa using prefixes, by simpa using total⟩
  · rintro ⟨prefixes, total⟩
    exact ⟨by simpa using prefixes, by simpa using total⟩

section

variable {depth : Nat} {rest : List Token}

@[simp]
theorem nestedInside_nil_iff :
    NestedInside depth [] ↔ depth = 0 := by
  constructor
  · intro nested
    simpa using nested.total
  · rintro rfl
    exact ⟨by simp, by simp⟩

theorem count_cons_eq_add {token : Token} (other : Token)
    (tokens : List Token) :
    (token :: tokens).count other =
      [token].count other + tokens.count other := by
  rw [← List.singleton_append, List.count_append]

/-- The first token opens and closes its brackets; the others have to close
what is then open. -/
theorem nestedInside_cons_iff (depth : Nat) (token : Token)
    (rest : List Token)
    (bound : [token].count .closeBracket ≤
      depth + [token].count .openBracket) :
    NestedInside depth (token :: rest) ↔
      NestedInside
        (depth + [token].count .openBracket -
          [token].count .closeBracket) rest := by
  constructor
  · rintro ⟨prefixes, total⟩
    rw [count_cons_eq_add, count_cons_eq_add .closeBracket] at total
    refine ⟨?_, by omega⟩
    intro count
    have inside := prefixes (count + 1)
    rw [List.take_succ_cons, count_cons_eq_add,
      count_cons_eq_add .openBracket] at inside
    omega
  · rintro ⟨prefixes, total⟩
    constructor
    · intro count
      cases count with
      | zero => simp
      | succ count =>
          have inside := prefixes count
          rw [List.take_succ_cons, count_cons_eq_add,
            count_cons_eq_add .openBracket]
          omega
    · rw [count_cons_eq_add, count_cons_eq_add .closeBracket]
      omega

@[simp]
theorem nestedInside_openBracket_iff :
    NestedInside depth (.openBracket :: rest) ↔
      NestedInside (depth + 1) rest := by
  have cons := nestedInside_cons_iff depth .openBracket rest
    (by simp)
  simpa using cons

@[simp]
theorem nestedInside_succ_closeBracket_iff :
    NestedInside (depth + 1) (.closeBracket :: rest) ↔
      NestedInside depth rest := by
  have cons := nestedInside_cons_iff (depth + 1) .closeBracket rest
    (by simp)
  simpa using cons

theorem not_nestedInside_zero_closeBracket :
    ¬ NestedInside 0 (.closeBracket :: rest) := by
  intro nested
  have bound := nested.prefixes 1
  simp at bound

@[simp]
theorem nestedInside_number_iff {value : Float} :
    NestedInside depth (.number value :: rest) ↔
      NestedInside depth rest := by
  have cons := nestedInside_cons_iff depth (.number value) rest
    (by simp)
  simpa using cons

@[simp]
theorem nestedInside_symbol_iff {used : Symbol} :
    NestedInside depth (.symbol used :: rest) ↔
      NestedInside depth rest := by
  have cons := nestedInside_cons_iff depth (.symbol used) rest
    (by simp)
  simpa using cons

end

namespace Conversion

/-- Takes in the remaining tokens and ends. -/
def run (conversion : Conversion) (tokens : List Token) :
    Except CalculationError (List Token) :=
  tokens.foldlM push conversion >>= finish

@[simp]
theorem run_nil (conversion : Conversion) :
    conversion.run [] = conversion.finish :=
  rfl

theorem run_cons (conversion : Conversion) (token : Token)
    (rest : List Token) :
    conversion.run (token :: rest) =
      conversion.push token >>= fun next => next.run rest := by
  simp only [run, List.foldlM_cons, bind_assoc]

theorem run_cons_of_push_eq_ok {conversion next : Conversion}
    {token : Token} (pushed : conversion.push token = .ok next)
    (rest : List Token) :
    conversion.run (token :: rest) = next.run rest := by
  rw [run_cons, pushed]
  rfl

/-- An operator or a function waits. -/
theorem push_symbol_of_role_ne_constant (conversion : Conversion)
    {used : Symbol} (waits : used.role ≠ .constant) :
    conversion.push (.symbol used) = .ok (conversion.await used) := by
  obtain ⟨role, operation⟩ := used
  cases role with
  | operator => rfl
  | function => rfl
  | constant => exact absurd rfl waits

theorem push_eq_error {conversion : Conversion} {token : Token}
    {failure : CalculationError}
    (failed : conversion.push token = .error failure) :
    failure = .unmatchedBracket := by
  unfold push at failed
  split at failed
  · cases failed
  · cases failed
  · cases failed
  · cases failed
  · split at failed
    · exact (Except.error.inj failed).symm
    · cases failed

theorem run_eq_error {conversion : Conversion} {tokens : List Token}
    {failure : CalculationError}
    (failed : conversion.run tokens = .error failure) :
    failure = .unmatchedBracket := by
  induction tokens generalizing conversion with
  | nil =>
      rw [run_nil, finish] at failed
      split at failed
      · cases failed
      · exact (Except.error.inj failed).symm
  | cons token rest ih =>
      rw [run_cons, Outcome.bind_eq_error_iff] at failed
      rcases failed with failed | ⟨next, -, failed⟩
      · exact push_eq_error failed
      · exact ih failed

/-- From a state on, exactly the tokens succeed that are properly nested
inside the open brackets. -/
theorem exists_run_eq_ok_iff (conversion : Conversion)
    (tokens : List Token) :
    (∃ output, conversion.run tokens = .ok output) ↔
      NestedInside conversion.enclosing.length tokens := by
  induction tokens generalizing conversion with
  | nil =>
      rw [run_nil, finish, nestedInside_nil_iff]
      cases enclosing : conversion.enclosing with
      | nil => simp
      | cons around outer => simp
  | cons token rest ih =>
      cases token with
      | number value =>
          rw [run_cons_of_push_eq_ok (push_number _ _), ih,
            nestedInside_number_iff]
      | openBracket =>
          rw [run_cons_of_push_eq_ok (push_openBracket _), ih]
          simp
      | closeBracket =>
          cases enclosing : conversion.enclosing with
          | nil =>
              rw [run_cons, push_closeBracket_of_enclosing_eq_nil enclosing]
              constructor
              · rintro ⟨output, failed⟩
                cases failed
              · intro nested
                exact absurd nested not_nestedInside_zero_closeBracket
          | cons around outer =>
              rw [run_cons_of_push_eq_ok
                (push_closeBracket_of_enclosing_eq_cons enclosing), ih]
              simp
      | symbol used =>
          rw [nestedInside_symbol_iff]
          by_cases waits : used.role = .constant
          · obtain ⟨role, operation⟩ := used
            obtain rfl : role = .constant := waits
            rw [run_cons_of_push_eq_ok (push_constant _ _), ih]
          · rw [run_cons_of_push_eq_ok
              (push_symbol_of_role_ne_constant _ waits), ih]
            rfl

end Conversion

theorem toReversePolish_eq_run (tokens : List Token) :
    toReversePolish tokens = Conversion.start.run tokens :=
  rfl

theorem exists_toReversePolish_eq_ok_iff (tokens : List Token) :
    (∃ output, toReversePolish tokens = .ok output) ↔ Nested tokens := by
  rw [toReversePolish_eq_run, Conversion.exists_run_eq_ok_iff,
    ← nestedInside_zero_iff]
  rfl

theorem toReversePolish_eq_error_iff (tokens : List Token)
    (failure : CalculationError) :
    toReversePolish tokens = .error failure ↔
      failure = .unmatchedBracket ∧ Unbalanced tokens := by
  have succeeds := exists_toReversePolish_eq_ok_iff tokens
  rw [nested_iff_not_unbalanced] at succeeds
  constructor
  · intro failed
    refine ⟨Conversion.run_eq_error failed, ?_⟩
    by_contra balanced
    obtain ⟨output, succeeded⟩ := succeeds.mpr balanced
    rw [failed] at succeeded
    cases succeeded
  · rintro ⟨rfl, unbalanced⟩
    cases outcome : toReversePolish tokens with
    | error failure =>
        exact congrArg Except.error (Conversion.run_eq_error outcome)
    | ok output => exact absurd unbalanced (succeeds.mp ⟨output, outcome⟩)

end Calculator

/-!
# Outcomes of steps that may fail

A step that may fail is taken apart by its outcome: what follows it succeeds
only where the step does, and fails where the step fails.
-/

namespace Calculator.Outcome

variable {ε α β : Type}

theorem map_eq_ok_iff {change : α → β} {step : Except ε α} {value : β} :
    step.map change = .ok value ↔
      ∃ source, step = .ok source ∧ change source = value := by
  cases step <;> simp [Except.map]

theorem map_eq_error_iff {change : α → β} {step : Except ε α}
    {failure : ε} :
    step.map change = .error failure ↔ step = .error failure := by
  cases step <;> simp [Except.map]

theorem bind_eq_ok_iff {step : Except ε α} {next : α → Except ε β}
    {value : β} :
    step >>= next = .ok value ↔
      ∃ source, step = .ok source ∧ next source = .ok value := by
  cases step <;> simp [bind, Except.bind]

theorem bind_eq_error_iff {step : Except ε α} {next : α → Except ε β}
    {failure : ε} :
    step >>= next = .error failure ↔
      step = .error failure ∨
        ∃ source, step = .ok source ∧ next source = .error failure := by
  cases step <;> simp [bind, Except.bind]

end Calculator.Outcome

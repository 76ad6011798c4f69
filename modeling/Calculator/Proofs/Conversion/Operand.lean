import Calculator.Proofs.Conversion.Balance

/-!
# A bracketed group is one operand

A conversion does not look at the tokens that have been released, and inside an
open bracket it does not look at the symbols that wait outside.  So a group in
brackets is brought into order as if it stood alone, and what follows it is
brought into order as if the group were a number.

The *frame* of a conversion are the tokens released before it and the symbols
that wait around it.  A step that succeeds without the frame succeeds within it
and keeps it, and so does a whole run.
-/

namespace Calculator

namespace Conversion

/-- The conversion within a frame. -/
def framed (conversion : Conversion) (front : Array Token)
    (outer : List (List Symbol)) : Conversion where
  released := front ++ conversion.released
  waiting := conversion.waiting
  enclosing := conversion.enclosing ++ outer

section

variable {conversion next last : Conversion} {token : Token}
  {tokens rest output : List Token}

/-- Tokens pass behind those of the frame. -/
theorem release_framed (conversion : Conversion) (front : Array Token)
    (outer : List (List Symbol)) (symbols : List Symbol) :
    (conversion.framed front outer).release symbols =
      (conversion.release symbols).framed front outer := by
  have order : front ++ conversion.released ++ symbols.map Token.symbol =
      front ++ (conversion.released ++ symbols.map Token.symbol) :=
    Array.ext' (by simp)
  simp [framed, release, order]

theorem await_framed (conversion : Conversion) (front : Array Token)
    (outer : List (List Symbol)) (used : Symbol) :
    (conversion.framed front outer).await used =
      (conversion.await used).framed front outer := by
  rw [Conversion.await, release_framed]
  rfl

/-- A step keeps the frame. -/
theorem push_framed (front : Array Token) (outer : List (List Symbol))
    (pushed : conversion.push token = .ok next) :
    (conversion.framed front outer).push token =
      .ok (next.framed front outer) := by
  cases token with
  | number value =>
      obtain rfl := Except.ok.inj pushed
      simp [framed]
  | openBracket =>
      obtain rfl := Except.ok.inj pushed
      simp [framed]
  | closeBracket =>
      cases isInside : conversion.enclosing with
      | nil =>
          rw [push_closeBracket_of_enclosing_eq_nil isInside] at pushed
          cases pushed
      | cons around enclosing =>
          rw [push_closeBracket_of_enclosing_eq_cons isInside] at pushed
          obtain rfl := Except.ok.inj pushed
          have isFramed : (conversion.framed front outer).enclosing =
              around :: (enclosing ++ outer) := by
            rw [framed, isInside, List.cons_append]
          rw [push_closeBracket_of_enclosing_eq_cons isFramed,
            release_framed]
          rfl
  | symbol used =>
      by_cases waits : used.role = .constant
      · obtain ⟨role, operation⟩ := used
        obtain rfl : role = .constant := waits
        obtain rfl := Except.ok.inj pushed
        simp [framed]
      · rw [push_symbol_of_role_ne_constant _ waits] at pushed ⊢
        obtain rfl := Except.ok.inj pushed
        rw [await_framed]

/-- A run keeps the frame. -/
theorem foldlM_push_framed (front : Array Token)
    (outer : List (List Symbol))
    (ran : tokens.foldlM push conversion = .ok last) :
    tokens.foldlM push (conversion.framed front outer) =
      .ok (last.framed front outer) := by
  induction tokens generalizing conversion with
  | nil =>
      obtain rfl := Except.ok.inj ran
      rfl
  | cons token tokens ih =>
      rw [List.foldlM_cons, Outcome.bind_eq_ok_iff] at ran
      obtain ⟨next, pushed, ran⟩ := ran
      rw [List.foldlM_cons, push_framed front outer pushed]
      exact ih ran

theorem run_append (conversion : Conversion) (tokens rest : List Token) :
    conversion.run (tokens ++ rest) =
      tokens.foldlM push conversion >>= fun next => next.run rest := by
  simp only [run, List.foldlM_append, bind_assoc]

theorem finish_eq_ok_iff :
    conversion.finish = .ok output ↔
      conversion.enclosing = [] ∧
        (conversion.release conversion.waiting).released.toList =
          output := by
  rw [finish]
  split
  · next outermost => simp [List.isEmpty_iff.mp outermost]
  · next inner =>
      rw [List.isEmpty_iff] at inner
      simp [inner]

theorem run_eq_ok_iff :
    conversion.run tokens = .ok output ↔
      ∃ last : Conversion,
        tokens.foldlM push conversion = .ok last ∧
          last.enclosing = [] ∧
            (last.release last.waiting).released.toList = output := by
  simp only [run, Outcome.bind_eq_ok_iff, finish_eq_ok_iff]

/-- Tokens that have been released before stand before those of a run. -/
theorem run_framed (front : Array Token)
    (finished : conversion.run tokens = .ok output) :
    (conversion.framed front []).run tokens =
      .ok (front.toList ++ output) := by
  obtain ⟨last, ran, outermost, rfl⟩ := run_eq_ok_iff.mp finished
  refine run_eq_ok_iff.mpr
    ⟨last.framed front [], foldlM_push_framed front [] ran, ?_, ?_⟩
  · rw [framed, outermost, List.nil_append]
  · rw [release_framed]
    exact Array.toList_append

/-- A group in brackets is brought into order as if it stood alone, and
releases nothing that waits outside. -/
theorem run_brackets (conversion : Conversion) (rest : List Token)
    (converted : toReversePolish tokens = .ok output) :
    conversion.run (.openBracket :: (tokens ++ .closeBracket :: rest)) =
      run { conversion with
        released := conversion.released ++ output.toArray } rest := by
  obtain ⟨last, ran, outermost, rfl⟩ := run_eq_ok_iff.mp converted
  have opened : conversion.push .openBracket =
      .ok (start.framed conversion.released
        (conversion.waiting :: conversion.enclosing)) := by
    simp [framed, start]
  have inside := foldlM_push_framed conversion.released
    (conversion.waiting :: conversion.enclosing) ran
  have around : (last.framed conversion.released
      (conversion.waiting :: conversion.enclosing)).enclosing =
        conversion.waiting :: conversion.enclosing := by
    rw [framed, outermost, List.nil_append]
  rw [run_cons_of_push_eq_ok opened, run_append, inside]
  change run _ _ = _
  rw [run_cons_of_push_eq_ok
    (push_closeBracket_of_enclosing_eq_cons around), release_framed]
  rfl

end

end Conversion

/-- In every context a bracketed group is one operand: the context fails with
every group, or it lists the tokens of the group, as they are ordered alone,
between tokens that do not depend on the group. -/
theorem toReversePolish_bracketed (before after : List Token) :
    (∀ tokens output, toReversePolish tokens = .ok output →
      toReversePolish
        (before ++ .openBracket :: (tokens ++ .closeBracket :: after)) =
          .error .unmatchedBracket) ∨
      ∃ left right, ∀ tokens output, toReversePolish tokens = .ok output →
        toReversePolish
          (before ++ .openBracket :: (tokens ++ .closeBracket :: after)) =
            .ok (left ++ (output ++ right)) := by
  cases taken : before.foldlM Conversion.push Conversion.start with
  | error failure =>
      left
      intro tokens output converted
      have failed : toReversePolish
          (before ++ .openBracket :: (tokens ++ .closeBracket :: after)) =
            .error failure := by
        rw [toReversePolish_eq_run, Conversion.run_append, taken]
        rfl
      rw [failed, Conversion.run_eq_error failed]
  | ok reached =>
      have brackets : ∀ tokens output, toReversePolish tokens = .ok output →
          toReversePolish
            (before ++ .openBracket :: (tokens ++ .closeBracket :: after)) =
              Conversion.run { reached with
                released := reached.released ++ output.toArray } after := by
        intro tokens output converted
        rw [toReversePolish_eq_run, Conversion.run_append, taken]
        exact reached.run_brackets after converted
      by_cases nested : NestedInside reached.enclosing.length after
      · right
        obtain ⟨right, finished⟩ :=
          (Conversion.exists_run_eq_ok_iff
            { reached with released := #[] } after).mpr nested
        refine ⟨reached.released.toList, right, ?_⟩
        intro tokens output converted
        rw [brackets tokens output converted]
        have framed := Conversion.run_framed
          (reached.released ++ output.toArray) finished
        simpa [Conversion.framed] using framed
      · left
        intro tokens output converted
        cases outcome : toReversePolish
            (before ++ .openBracket :: (tokens ++ .closeBracket :: after)) with
        | error failure => rw [Conversion.run_eq_error outcome]
        | ok ordered =>
            rw [brackets tokens output converted] at outcome
            exact absurd
              ((Conversion.exists_run_eq_ok_iff _ _).mp ⟨_, outcome⟩) nested

end Calculator

import Calculator.Proofs.Conversion.Operand
import Calculator.Proofs.Conversion.Order

/-!
# A group in the place of an operand

A number passes a conversion at once.  A properly nested group in brackets
passes as well, in its own order, and leaves what waits around it as it was.  So
a group is converted like a number that stands in its place: the result is the
same, with the converted group where the number was.

Nothing is asked of what stands around the group.  Its brackets may be
unbalanced, its operators may lack operands, and symbols of any priority may
wait when the group begins.
-/

namespace Calculator

/-- The tokens, with others in the place of the given one. -/
def substitute (place : Token) (others tokens : List Token) : List Token :=
  tokens.flatMap fun token => if token = place then others else [token]

theorem substitute_eq_self {place : Token} {tokens : List Token}
    (absent : place ∉ tokens) (others : List Token) :
    substitute place others tokens = tokens := by
  induction tokens with
  | nil => rfl
  | cons token tokens ih =>
      rw [List.mem_cons, not_or] at absent
      rw [substitute, List.flatMap_cons, if_neg (Ne.symm absent.1)]
      exact congrArg (token :: ·) (ih absent.2)

theorem substitute_append_cons {place : Token} {left right : List Token}
    (notLeft : place ∉ left) (notRight : place ∉ right)
    (others : List Token) :
    substitute place others (left ++ place :: right) =
      left ++ (others ++ right) := by
  have unchangedLeft := substitute_eq_self notLeft others
  have unchangedRight := substitute_eq_self notRight others
  rw [substitute] at unchangedLeft unchangedRight
  rw [substitute, List.flatMap_append, List.flatMap_cons, if_pos rfl,
    unchangedLeft, unchangedRight]

/-- The tokens of one operand: a number, a constant, or a group in
brackets. -/
inductive SingleOperand : List Token → Prop
  | number (value : Float) : SingleOperand [.number value]
  | constant (operation : Operation) : SingleOperand [.constant operation]
  | brackets {inner : List Token} (nested : Nested inner) :
      SingleOperand (.openBracket :: (inner ++ [.closeBracket]))

namespace Conversion

variable {inner output : List Token}

/-- A group in brackets lets its tokens pass in their own order, whatever
stands before it. -/
theorem toReversePolish_append_brackets
    (converted : toReversePolish inner = .ok output)
    (before after : List Token) :
    toReversePolish
        (before ++ .openBracket :: (inner ++ .closeBracket :: after)) =
      before.foldlM push start >>= fun reached =>
        run { reached with
          released := reached.released ++ output.toArray } after := by
  rw [toReversePolish_eq_run, run_append]
  simp only [run_brackets _ after converted]

/-- Brackets around all tokens do not change the conversion. -/
theorem toReversePolish_brackets
    (converted : toReversePolish inner = .ok output) :
    toReversePolish (.openBracket :: (inner ++ [.closeBracket])) =
      .ok output := by
  have group := toReversePolish_append_brackets converted [] []
  rw [List.nil_append] at group
  rw [group, List.foldlM_nil, pure_bind]
  exact run_eq_ok_iff.mpr ⟨_, rfl, rfl, by simp [start]⟩

/-- A single operand lets its own conversion pass, whatever stands before
it. -/
theorem toReversePolish_append_operand {operand : List Token}
    (isOperand : SingleOperand operand) :
    ∃ output, toReversePolish operand = .ok output ∧
      ∀ before after,
        toReversePolish (before ++ (operand ++ after)) =
          before.foldlM push start >>= fun reached =>
            run { reached with
              released := reached.released ++ output.toArray } after := by
  cases isOperand with
  | number value =>
      refine ⟨[.number value], rfl, fun before after => ?_⟩
      rw [toReversePolish_eq_run, run_append]
      simp [run_cons_of_push_eq_ok (push_number _ value)]
  | constant operation =>
      refine ⟨[.constant operation], rfl, fun before after => ?_⟩
      rw [toReversePolish_eq_run, run_append]
      simp [run_cons_of_push_eq_ok (push_constant _ operation)]
  | @brackets inner nested =>
      obtain ⟨output, converted⟩ :=
        (exists_toReversePolish_eq_ok_iff inner).mpr nested
      refine ⟨output, toReversePolish_brackets converted,
        fun before after => ?_⟩
      have group := toReversePolish_append_brackets converted before after
      simpa using group

end Conversion

/-- Further brackets around an operand do not change the conversion. -/
theorem toReversePolish_brackets_operand {operand : List Token}
    (isOperand : SingleOperand operand) (before after : List Token) :
    toReversePolish
        (before ++ .openBracket :: (operand ++ .closeBracket :: after)) =
      toReversePolish (before ++ (operand ++ after)) := by
  obtain ⟨output, converted, inContext⟩ :=
    Conversion.toReversePolish_append_operand isOperand
  rw [inContext, Conversion.toReversePolish_append_brackets converted]

/-- A token that stands at one place only is released once. -/
theorem not_mem_of_toReversePolish_eq_ok {place : Token}
    {before after left right : List Token} (noBracket : place.isBracket = false)
    (notBefore : place ∉ before) (notAfter : place ∉ after)
    (converted : toReversePolish (before ++ place :: after) =
      .ok (left ++ place :: right)) :
    place ∉ left ∧ place ∉ right := by
  have complete := (perm_of_toReversePolish_eq_ok converted).count_eq place
  rw [List.count_filter (by simp [noBracket]), List.count_append,
    List.count_append, List.count_cons_self, List.count_cons_self,
    List.count_eq_zero.mpr notBefore, List.count_eq_zero.mpr notAfter]
    at complete
  exact ⟨List.count_eq_zero.mp (by omega), List.count_eq_zero.mp (by omega)⟩

/-- A properly nested group in brackets is converted like a number that occurs
nowhere else: both fail, or the group's own conversion stands in the place of the
number, which is there once.  So a single operand, and all tokens together, may be
put into further brackets. -/
theorem toReversePolish_group_as_operand :
    (∀ (before inner after : List Token) (value : Float),
      Nested inner → .number value ∉ before → .number value ∉ after →
        ∃ output, toReversePolish inner = .ok output ∧
          toReversePolish
              (before ++ .openBracket :: (inner ++ .closeBracket :: after)) =
            (toReversePolish (before ++ .number value :: after)).map
              (substitute (.number value) output) ∧
          ∀ ordered,
            toReversePolish (before ++ .number value :: after) =
                .ok ordered →
              ordered.count (.number value) = 1) ∧
      (∀ tokens output, toReversePolish tokens = .ok output →
        toReversePolish (.openBracket :: (tokens ++ [.closeBracket])) =
          .ok output) ∧
      ∀ before operand after, SingleOperand operand →
        toReversePolish
            (before ++ .openBracket :: (operand ++ .closeBracket :: after)) =
          toReversePolish (before ++ (operand ++ after)) := by
  refine ⟨?_, fun tokens output => Conversion.toReversePolish_brackets,
    fun before operand after isOperand =>
      toReversePolish_brackets_operand isOperand before after⟩
  intro before inner after value nested notBefore notAfter
  obtain ⟨output, converted⟩ :=
    (exists_toReversePolish_eq_ok_iff inner).mpr nested
  refine ⟨output, converted, ?_⟩
  have alone : toReversePolish [.number value] = .ok [.number value] := rfl
  have inContext : toReversePolish
        (before ++ .openBracket ::
          ([.number value] ++ .closeBracket :: after)) =
      toReversePolish (before ++ .number value :: after) :=
    toReversePolish_brackets_operand (.number value) before after
  rcases toReversePolish_bracketed before after with
    fails | ⟨left, right, ordered⟩
  · have failed := inContext.symm.trans (fails _ _ alone)
    rw [fails inner output converted, failed]
    exact ⟨rfl, nofun⟩
  · have found := inContext.symm.trans (ordered _ _ alone)
    rw [List.singleton_append] at found
    obtain ⟨notLeft, notRight⟩ :=
      not_mem_of_toReversePolish_eq_ok rfl notBefore notAfter found
    rw [ordered inner output converted, found]
    refine ⟨congrArg Except.ok
      (substitute_append_cons notLeft notRight output).symm, ?_⟩
    rintro _ ⟨⟩
    rw [List.count_append, List.count_cons_self,
      List.count_eq_zero.mpr notLeft, List.count_eq_zero.mpr notRight]

/-- A sum in brackets stands for the base of a power. -/
theorem toReversePolish_group_as_operand_sum :
    Nested [.number 1, .operator (.binary .add), .constant (.constant .pi)] ∧
      toReversePolish
          [.number 2, .operator (.binary .multiply), .openBracket, .number 1,
            .operator (.binary .add), .constant (.constant .pi),
            .closeBracket, .operator (.binary .power), .number 3] =
        .ok
          [.number 2, .number 1, .constant (.constant .pi),
            .operator (.binary .add), .number 3, .operator (.binary .power),
            .operator (.binary .multiply)] := by
  have nested : Nested
      [.number 1, .operator (.binary .add), .constant (.constant .pi)] :=
    (exists_toReversePolish_eq_ok_iff _).mp ⟨_, rfl⟩
  obtain ⟨output, converted, inContext, -⟩ :=
    toReversePolish_group_as_operand.1
      [.number 2, .operator (.binary .multiply)] _
      [.operator (.binary .power), .number 3] 7 nested (by decide +kernel)
      (by decide +kernel)
  obtain rfl := Except.ok.inj converted
  exact ⟨nested, inContext.trans (by decide +kernel)⟩

end Calculator

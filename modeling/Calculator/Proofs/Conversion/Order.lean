import Calculator.Proofs.Conversion.Balance
import Calculator.Proofs.Conversion.ReleasePoint
import Mathlib.Data.List.TakeWhile

/-!
# The order in which tokens are released

A conversion releases the tokens by their release points, and those with the
same release point latest first.

The invariant of the run keeps, for every open bracket, the waiting symbols
with their positions.  Within one group the later symbol binds tighter, so
that a token which releases one of them releases everything waiting after it.
-/

namespace Calculator

/-- The token is a bracket. -/
def Token.isBracket : Token → Bool
  | .openBracket | .closeBracket => true
  | .number _ | .symbol _ => false

/-- A symbol that waits, with its position. -/
abbrev Held := Symbol × Nat

/-- The token that waits, with its position. -/
def Held.occurrence (held : Held) : Token × Nat := (.symbol held.1, held.2)

/-- In a group the later symbol binds tighter. -/
def Held.Above (late early : Held) : Prop :=
  early.2 < late.2 ∧ early.1.priority < late.1.priority

/-- The symbol binds at least as tightly as the priority says. -/
def Held.binds (priority : Nat) (held : Held) : Bool :=
  decide (priority ≤ held.1.priority)

/-- The tokens that are no brackets, with their positions. -/
def occurrences (tokens : List Token) (position : Nat) :
    List (Token × Nat) :=
  (tokens.zipIdx position).filter fun occurrence =>
    !occurrence.1.isBracket

/-- The first token has an earlier release point, or the same one and a later
position. -/
def ReleasedBefore (tokens : List Token) (first second : Token × Nat) :
    Prop :=
  ∃ point otherPoint,
    ReleasePoint tokens first.2 point ∧
      ReleasePoint tokens second.2 otherPoint ∧
        (point < otherPoint ∨ point = otherPoint ∧ second.2 < first.2)

/-- Every token that is no bracket occurs once, where its release point puts
it. -/
structure ReleaseOrder (tokens : List Token) (order : List (Token × Nat)) :
    Prop where
  complete : order.Perm (occurrences tokens 0)
  points : ∀ occurrence ∈ order,
    ∃ point, ReleasePoint tokens occurrence.2 point
  sorted : order.Pairwise (ReleasedBefore tokens)

/-- What is known between two tokens: the groups of waiting symbols, the
innermost first, with the places where each symbol will be released. -/
structure Holds (tokens : List Token) (position : Nat)
    (conversion : Conversion) (groups : List (List Held)) : Prop where
  symbols : groups.map (List.map Prod.fst) =
    conversion.waiting :: conversion.enclosing
  above : ∀ group ∈ groups, group.Pairwise Held.Above
  earlier : ∀ group ∈ groups, ∀ held ∈ group, held.2 < position
  point : ∀ depth group, groups[depth]? = some group →
    ∀ held ∈ group,
      releasePoint tokens held.2 =
        releaseAt held.1.priority depth position (tokens.drop position)

/-- What one token does: some tokens pass, latest first, and nothing is lost
or doubled. -/
structure Passes (tokens : List Token) (position : Nat) (token : Token)
    (conversion next : Conversion) (groups after : List (List Held))
    (passed : List (Token × Nat)) : Prop where
  holds : Holds tokens (position + 1) next after
  released : next.released.toList =
    conversion.released.toList ++ passed.map Prod.fst
  point : ∀ occurrence ∈ passed,
    releasePoint tokens occurrence.2 = position
  latest : passed.Pairwise fun first second => second.2 < first.2
  complete : (passed ++ after.flatten.map Held.occurrence).Perm
    (groups.flatten.map Held.occurrence ++ occurrences [token] position)

section

variable {tokens rest : List Token} {position : Nat}
  {conversion : Conversion} {groups : List (List Held)}

/-! ## Groups of waiting symbols -/

theorem priority_le_of_mem_takeWhile {group : List Held} {priority : Nat}
    {held : Held} (member : held ∈ group.takeWhile (Held.binds priority)) :
    priority ≤ held.1.priority := by
  have binds := List.mem_takeWhile_imp member
  exact of_decide_eq_true binds

/-- Behind the first symbol that does not bind as tightly, none does. -/
theorem priority_lt_of_mem_dropWhile {group : List Held} {priority : Nat}
    (above : group.Pairwise Held.Above) {held : Held}
    (member : held ∈ group.dropWhile (Held.binds priority)) :
    held.1.priority < priority := by
  induction group with
  | nil => simp at member
  | cons late earlier ih =>
      obtain ⟨first, others⟩ := List.pairwise_cons.mp above
      by_cases binds : Held.binds priority late = true
      · rw [List.dropWhile_cons_of_pos binds] at member
        exact ih others member
      · rw [List.dropWhile_cons_of_neg binds] at member
        have weaker : late.1.priority < priority := by
          simpa [Held.binds] using binds
        rcases List.mem_cons.mp member with rfl | member
        · exact weaker
        · exact Nat.lt_trans (first held member).2 weaker

theorem map_fst_occurrence (group : List Held) :
    (group.map Held.occurrence).map Prod.fst =
      (group.map Prod.fst).map Token.symbol := by
  simp [Held.occurrence, Function.comp_def]

theorem pairwise_occurrence {group : List Held}
    (above : group.Pairwise Held.Above) :
    (group.map Held.occurrence).Pairwise
      fun first second => second.2 < first.2 := by
  rw [List.pairwise_map]
  exact above.imp fun pair => pair.1

theorem Holds.exists_cons
    (holds : Holds tokens position conversion groups) :
    ∃ group outer,
      groups = group :: outer ∧
        group.map Prod.fst = conversion.waiting ∧
          outer.map (List.map Prod.fst) = conversion.enclosing := by
  cases groups with
  | nil =>
      have symbols := holds.symbols
      simp at symbols
  | cons group outer =>
      obtain ⟨waiting, enclosing⟩ := List.cons.inj holds.symbols
      exact ⟨group, outer, rfl, waiting, enclosing⟩

/-! ## One token -/

/-- An operand passes and leaves the waiting symbols as they are. -/
theorem Holds.passes_operand {token : Token}
    (holds : Holds tokens position conversion groups)
    (suffix : tokens.drop position = token :: rest)
    (noBracket : token.isBracket = false)
    (here : releasePoint tokens position = position)
    (stays : ∀ priority depth,
      releaseAt priority depth position (token :: rest) =
        releaseAt priority depth (position + 1) rest) :
    Passes tokens position token conversion
      { conversion with released := conversion.released.push token }
      groups groups [(token, position)] := by
  obtain ⟨-, following⟩ := drop_succ_of_drop_eq_cons suffix
  constructor
  · constructor
    · exact holds.symbols
    · exact holds.above
    · intro group member held isHeld
      exact Nat.lt_succ_of_lt (holds.earlier group member held isHeld)
    · intro depth group found held isHeld
      rw [holds.point depth group found held isHeld, suffix, stays,
        following]
  · simp
  · simpa using here
  · simp
  · simpa [occurrences, noBracket] using
      (List.perm_append_singleton (token, position)
        (groups.flatten.map Held.occurrence)).symm

theorem Holds.passes_openBracket
    (holds : Holds tokens position conversion groups)
    (suffix : tokens.drop position = .openBracket :: rest) :
    Passes tokens position .openBracket conversion
      { conversion with
        waiting := []
        enclosing := conversion.waiting :: conversion.enclosing }
      groups ([] :: groups) [] := by
  obtain ⟨-, following⟩ := drop_succ_of_drop_eq_cons suffix
  constructor
  · constructor
    · simpa using holds.symbols
    · simpa using holds.above
    · intro group member held isHeld
      rcases List.mem_cons.mp member with rfl | member
      · simp at isHeld
      · exact Nat.lt_succ_of_lt (holds.earlier group member held isHeld)
    · intro depth group found held isHeld
      cases depth with
      | zero =>
          obtain rfl : [] = group := by simpa using found
          simp at isHeld
      | succ depth =>
          rw [holds.point depth group (by simpa using found) held isHeld,
            suffix, following, releaseAt]
  · simp
  · simp
  · simp
  · simp [occurrences, Token.isBracket]

/-- A closing bracket releases the innermost group. -/
theorem Holds.passes_closeBracket {group : List Held}
    {outer : List (List Held)} {around : List Symbol}
    {enclosing : List (List Symbol)}
    (holds : Holds tokens position conversion (group :: outer))
    (suffix : tokens.drop position = .closeBracket :: rest)
    (inside : conversion.enclosing = around :: enclosing) :
    Passes tokens position .closeBracket conversion
      { conversion.release conversion.waiting with
        waiting := around
        enclosing := enclosing }
      (group :: outer) outer (group.map Held.occurrence) := by
  obtain ⟨-, following⟩ := drop_succ_of_drop_eq_cons suffix
  obtain ⟨waiting, others⟩ := List.cons.inj holds.symbols
  constructor
  · constructor
    · rw [← inside]
      exact others
    · intro other member
      exact holds.above other (List.mem_cons_of_mem _ member)
    · intro other member held isHeld
      exact Nat.lt_succ_of_lt
        (holds.earlier other (List.mem_cons_of_mem _ member) held isHeld)
    · intro depth other found held isHeld
      rw [holds.point (depth + 1) other (by simpa using found) held isHeld,
        suffix, following, releaseAt]
  · rw [map_fst_occurrence, waiting]
    exact Conversion.toList_released_release _ _
  · intro occurrence member
    obtain ⟨held, isHeld, rfl⟩ := List.mem_map.mp member
    rw [Held.occurrence, holds.point 0 group rfl held isHeld, suffix,
      releaseAt]
  · exact pairwise_occurrence (holds.above group List.mem_cons_self)
  · simp [occurrences, Token.isBracket]

theorem map_fst_takeWhile (group : List Held) (used : Symbol) :
    (group.takeWhile (Held.binds used.priority)).map Prod.fst =
      (group.map Prod.fst).takeWhile
        fun other => decide (used.priority ≤ other.priority) := by
  rw [List.takeWhile_map]
  rfl

theorem map_fst_dropWhile (group : List Held) (used : Symbol) :
    (group.dropWhile (Held.binds used.priority)).map Prod.fst =
      (group.map Prod.fst).dropWhile
        fun other => decide (used.priority ≤ other.priority) := by
  rw [List.dropWhile_map]
  rfl

/-- An operator or a function waits above the weaker symbols of its group. -/
theorem Holds.await {group : List Held} {outer : List (List Held)}
    {used : Symbol}
    (holds : Holds tokens position conversion (group :: outer))
    (suffix : tokens.drop position = .symbol used :: rest)
    (waits : used.Waits) :
    Holds tokens (position + 1) (conversion.await used)
      (((used, position) :: group.dropWhile (Held.binds used.priority)) ::
        outer) := by
  obtain ⟨found, following⟩ := drop_succ_of_drop_eq_cons suffix
  obtain ⟨waiting, others⟩ := List.cons.inj holds.symbols
  have above := holds.above group List.mem_cons_self
  have sublist := List.dropWhile_sublist (Held.binds used.priority)
    (l := group)
  have earlier : ∀ held ∈ group.dropWhile (Held.binds used.priority),
      held.2 < position := by
    intro held isLeft
    exact holds.earlier group List.mem_cons_self held
      (sublist.subset isLeft)
  constructor
  · rw [List.map_cons, List.map_cons, map_fst_dropWhile, waiting, others]
    rfl
  · intro other member
    rcases List.mem_cons.mp member with rfl | member
    · refine List.pairwise_cons.mpr ⟨?_, above.sublist sublist⟩
      intro held isLeft
      exact ⟨earlier held isLeft,
        priority_lt_of_mem_dropWhile above isLeft⟩
    · exact holds.above other (List.mem_cons_of_mem _ member)
  · intro other member held isHeld
    rcases List.mem_cons.mp member with rfl | member
    · rcases List.mem_cons.mp isHeld with rfl | isLeft
      · exact Nat.lt_succ_self position
      · exact Nat.lt_succ_of_lt (earlier held isLeft)
    · exact Nat.lt_succ_of_lt
        (holds.earlier other (List.mem_cons_of_mem _ member) held isHeld)
  · intro depth other isGroup held isHeld
    cases depth with
    | zero =>
        obtain rfl := Option.some.inj isGroup
        rcases List.mem_cons.mp isHeld with rfl | isLeft
        · exact releasePoint_of_waits found waits
        · have weaker := priority_lt_of_mem_dropWhile above isLeft
          rw [holds.point 0 group rfl held (sublist.subset isLeft), suffix,
            following, releaseAt,
            if_neg fun yields => Nat.not_le.mpr weaker yields.2]
    | succ depth =>
        rw [holds.point (depth + 1) other isGroup held isHeld, suffix,
          following, releaseAt]

/-- An operator or a function releases the symbols of its group that bind at
least as tightly. -/
theorem Holds.passes_await {group : List Held}
    {outer : List (List Held)} {used : Symbol}
    (holds : Holds tokens position conversion (group :: outer))
    (suffix : tokens.drop position = .symbol used :: rest)
    (waits : used.Waits) :
    Passes tokens position (.symbol used) conversion
      (conversion.await used) (group :: outer)
      (((used, position) :: group.dropWhile (Held.binds used.priority)) ::
        outer)
      ((group.takeWhile (Held.binds used.priority)).map
        Held.occurrence) := by
  obtain ⟨waiting, -⟩ := List.cons.inj holds.symbols
  have above := holds.above group List.mem_cons_self
  have sublist := List.takeWhile_sublist (Held.binds used.priority)
    (l := group)
  constructor
  · exact holds.await suffix waits
  · rw [map_fst_occurrence, map_fst_takeWhile, waiting]
    exact Conversion.toList_released_release _ _
  · intro occurrence member
    obtain ⟨held, isTaken, rfl⟩ := List.mem_map.mp member
    have binds := priority_le_of_mem_takeWhile isTaken
    rw [Held.occurrence,
      holds.point 0 group rfl held (sublist.subset isTaken), suffix,
      releaseAt, if_pos ⟨waits, binds⟩]
  · exact pairwise_occurrence (above.sublist sublist)
  · have parts : (group.takeWhile (Held.binds used.priority)).map
        Held.occurrence ++
          (group.dropWhile (Held.binds used.priority)).map
            Held.occurrence = group.map Held.occurrence := by
      rw [← List.map_append, List.takeWhile_append_dropWhile]
    simp only [List.flatten_cons, List.map_append, List.map_cons, ← parts,
      List.append_assoc, List.cons_append]
    refine List.Perm.append_left _ ?_
    refine (List.perm_append_singleton _ _).symm.trans ?_
    simp [occurrences, Token.isBracket, Held.occurrence]

/-- Every token that is taken in keeps the invariant. -/
theorem Holds.exists_passes {token : Token} {next : Conversion}
    (holds : Holds tokens position conversion groups)
    (suffix : tokens.drop position = token :: rest)
    (pushed : conversion.push token = .ok next) :
    ∃ after passed,
      Passes tokens position token conversion next groups after passed := by
  obtain ⟨found, -⟩ := drop_succ_of_drop_eq_cons suffix
  obtain ⟨group, outer, rfl, waiting, enclosing⟩ := holds.exists_cons
  cases token with
  | number value =>
      obtain rfl := Except.ok.inj pushed
      refine ⟨_, _, holds.passes_operand suffix rfl ?_ ?_⟩
      · simp [releasePoint, found]
      · intro priority depth
        cases depth <;> rfl
  | openBracket =>
      obtain rfl := Except.ok.inj pushed
      exact ⟨_, _, holds.passes_openBracket suffix⟩
  | closeBracket =>
      cases inside : conversion.enclosing with
      | nil =>
          rw [Conversion.push_closeBracket_of_enclosing_eq_nil inside]
            at pushed
          cases pushed
      | cons around enclosing =>
          rw [Conversion.push_closeBracket_of_enclosing_eq_cons inside]
            at pushed
          obtain rfl := Except.ok.inj pushed
          exact ⟨_, _, holds.passes_closeBracket suffix inside⟩
  | symbol used =>
      by_cases waits : used.Waits
      · rw [Conversion.push_symbol_of_role_ne_constant _ waits] at pushed
        obtain rfl := Except.ok.inj pushed
        exact ⟨_, _, holds.passes_await suffix waits⟩
      · obtain ⟨role, operation⟩ := used
        obtain rfl : role = .constant := not_not.mp waits
        obtain rfl := Except.ok.inj pushed
        refine ⟨_, _, holds.passes_operand suffix rfl ?_ ?_⟩
        · simp [releasePoint, found, waits]
        · intro priority depth
          cases depth with
          | zero => simp [releaseAt, waits]
          | succ depth => rfl

end

/-! ## A whole run -/

section

variable {tokens : List Token}

theorem occurrences_cons (token : Token) (rest : List Token)
    (position : Nat) :
    occurrences (token :: rest) position =
      occurrences [token] position ++ occurrences rest (position + 1) := by
  simp only [occurrences, List.zipIdx_cons, List.zipIdx_nil]
  rw [← List.filter_append]
  rfl

/-- The release points decide, and the later position at equal ones. -/
def PointBefore (tokens : List Token) (first second : Token × Nat) : Prop :=
  releasePoint tokens first.2 < releasePoint tokens second.2 ∨
    releasePoint tokens first.2 = releasePoint tokens second.2 ∧
      second.2 < first.2

/-- At the end all waiting symbols pass. -/
theorem Holds.finish {conversion : Conversion} {groups : List (List Held)}
    {position : Nat} {output : List Token}
    (holds : Holds tokens position conversion groups)
    (atEnd : tokens.drop position = [])
    (finished : conversion.finish = .ok output) :
    ∃ order : List (Token × Nat),
      output = conversion.released.toList ++ order.map Prod.fst ∧
        order = groups.flatten.map Held.occurrence ∧
          (∀ occurrence ∈ order,
            releasePoint tokens occurrence.2 = position) ∧
              order.Pairwise fun first second => second.2 < first.2 := by
  obtain ⟨group, outer, rfl, waiting, enclosing⟩ := holds.exists_cons
  unfold Conversion.finish at finished
  split at finished
  · next outermost =>
      obtain rfl := Except.ok.inj finished
      have noOuter : outer = [] := by
        rw [List.isEmpty_iff.mp outermost] at enclosing
        exact List.map_eq_nil_iff.mp enclosing
      subst noOuter
      refine ⟨group.map Held.occurrence, ?_, by simp, ?_, ?_⟩
      · rw [map_fst_occurrence, waiting]
        exact Conversion.toList_released_release _ _
      · intro occurrence member
        obtain ⟨held, isHeld, rfl⟩ := List.mem_map.mp member
        rw [Held.occurrence, holds.point 0 group rfl held isHeld, atEnd,
          releaseAt]
      · exact pairwise_occurrence (holds.above group List.mem_cons_self)
  · cases finished

/-- From a state on, the run releases what waits and what follows, in the
order of the release points. -/
theorem Holds.run (rest : List Token) (position : Nat)
    (conversion : Conversion) (groups : List (List Held))
    (holds : Holds tokens position conversion groups)
    (suffix : tokens.drop position = rest) (output : List Token)
    (finished : conversion.run rest = .ok output) :
    ∃ order : List (Token × Nat),
      output = conversion.released.toList ++ order.map Prod.fst ∧
        order.Perm (groups.flatten.map Held.occurrence ++
          occurrences rest position) ∧
          (∀ occurrence ∈ order,
            position ≤ releasePoint tokens occurrence.2) ∧
              order.Pairwise (PointBefore tokens) := by
  induction rest generalizing position conversion groups with
  | nil =>
      obtain ⟨order, released, complete, point, latest⟩ :=
        holds.finish suffix finished
      refine ⟨order, released, ?_, ?_, ?_⟩
      · simp [complete, occurrences]
      · intro occurrence member
        exact Nat.le_of_eq (point occurrence member).symm
      · refine latest.imp_of_mem ?_
        intro first second isFirst isSecond later
        exact Or.inr
          ⟨(point first isFirst).trans (point second isSecond).symm, later⟩
  | cons token rest ih =>
      obtain ⟨-, following⟩ := drop_succ_of_drop_eq_cons suffix
      rw [Conversion.run_cons, Outcome.bind_eq_ok_iff] at finished
      obtain ⟨next, pushed, finished⟩ := finished
      obtain ⟨after, passed, passes⟩ := holds.exists_passes suffix pushed
      obtain ⟨order, released, complete, late, sorted⟩ :=
        ih (position + 1) next after passes.holds following finished
      -- What passes here is released here, and the rest only later.
      refine ⟨passed ++ order, ?_, ?_, ?_, ?_⟩
      · rw [released, passes.released, List.map_append, List.append_assoc]
      · refine (complete.append_left passed).trans ?_
        rw [← List.append_assoc, occurrences_cons, ← List.append_assoc]
        exact passes.complete.append_right _
      · intro occurrence member
        rcases List.mem_append.mp member with isPassed | isLater
        · exact Nat.le_of_eq (passes.point occurrence isPassed).symm
        · exact Nat.le_of_succ_le (late occurrence isLater)
      · refine List.pairwise_append.mpr ⟨?_, sorted, ?_⟩
        · refine passes.latest.imp_of_mem ?_
          intro first second isFirst isSecond later
          exact Or.inr ⟨(passes.point first isFirst).trans
            (passes.point second isSecond).symm, later⟩
        · intro first isFirst second isSecond
          have here := passes.point first isFirst
          have beyond := late second isSecond
          exact Or.inl (by omega)

theorem holds_start (tokens : List Token) :
    Holds tokens 0 Conversion.start [[]] := by
  constructor
  · rfl
  · simp
  · simp
  · intro depth group found held isHeld
    have empty : group = [] :=
      List.mem_singleton.mp (List.mem_of_getElem? found)
    subst empty
    simp at isHeld

theorem mem_occurrences_iff {token : Token} {position : Nat} :
    (token, position) ∈ occurrences tokens 0 ↔
      tokens[position]? = some token ∧ token.isBracket = false := by
  simp [occurrences, List.mem_zipIdx_iff_getElem?]

theorem Nested.isReleasePoint_of_mem (nested : Nested tokens)
    {occurrence : Token × Nat} (member : occurrence ∈ occurrences tokens 0) :
    ReleasePoint tokens occurrence.2
      (releasePoint tokens occurrence.2) := by
  obtain ⟨found, noBracket⟩ := mem_occurrences_iff.mp member
  refine nested.isReleasePoint found ⟨?_, ?_⟩
  · rw [found]
    rintro same
    rw [Option.some.inj same] at noBracket
    cases noBracket
  · rw [found]
    rintro same
    rw [Option.some.inj same] at noBracket
    cases noBracket

/-- There is at most one order by release points. -/
theorem ReleaseOrder.unique {order other : List (Token × Nat)}
    (isOrder : ReleaseOrder tokens order)
    (isOther : ReleaseOrder tokens other) :
    order = other := by
  refine List.Perm.eq_of_pairwise ?_ isOrder.sorted isOther.sorted
    (isOrder.complete.trans isOther.complete.symm)
  rintro first second - -
    ⟨point, otherPoint, isPoint, isOtherPoint, before⟩
    ⟨otherAgain, pointAgain, isOtherAgain, isPointAgain, after⟩
  obtain rfl := isPoint.unique isPointAgain
  obtain rfl := isOtherPoint.unique isOtherAgain
  omega

/-- What a conversion releases is in the order of the release points. -/
theorem exists_releaseOrder (nested : Nested tokens) {output : List Token}
    (converted : toReversePolish tokens = .ok output) :
    ∃ order, ReleaseOrder tokens order ∧ order.map Prod.fst = output := by
  obtain ⟨order, released, complete, -, sorted⟩ :=
    (holds_start tokens).run tokens 0 Conversion.start [[]] rfl output
      converted
  have isComplete : order.Perm (occurrences tokens 0) := complete
  have points : ∀ occurrence ∈ order,
      ReleasePoint tokens occurrence.2
        (releasePoint tokens occurrence.2) :=
    fun occurrence member =>
      nested.isReleasePoint_of_mem (isComplete.mem_iff.mp member)
  refine ⟨order, ⟨isComplete, ?_, ?_⟩, released.symm⟩
  · intro occurrence member
    exact ⟨_, points occurrence member⟩
  · refine sorted.imp_of_mem ?_
    intro first second isFirst isSecond before
    exact ⟨_, _, points first isFirst, points second isSecond, before⟩

/-- What a conversion returns are the tokens that are no brackets, in another
order. -/
theorem perm_of_toReversePolish_eq_ok {output : List Token}
    (converted : toReversePolish tokens = .ok output) :
    output.Perm (tokens.filter fun token => !token.isBracket) := by
  have nested := (exists_toReversePolish_eq_ok_iff tokens).mp
    ⟨output, converted⟩
  obtain ⟨order, isOrder, rfl⟩ := exists_releaseOrder nested converted
  have tokensOf : (occurrences tokens 0).map Prod.fst =
      tokens.filter fun token => !token.isBracket := by
    have listed := List.zipIdx_map_fst 0 tokens
    conv_rhs => rw [← listed, List.filter_map]
    rfl
  rw [← tokensOf]
  exact isOrder.complete.map Prod.fst

theorem mem_iff_of_toReversePolish_eq_ok {output : List Token}
    (converted : toReversePolish tokens = .ok output) {token : Token} :
    token ∈ output ↔ token ∈ tokens ∧ token.isBracket = false := by
  rw [(perm_of_toReversePolish_eq_ok converted).mem_iff]
  simp

/-- A conversion fails exactly on unbalanced brackets.  Otherwise it returns
every token that is no bracket once, sorted by release points and, at the same
point, from the latest position to the earliest. -/
theorem toReversePolish_specification (tokens : List Token) :
    (∀ failure,
      toReversePolish tokens = .error failure ↔
        failure = .unmatchedBracket ∧ Unbalanced tokens) ∧
      ∀ output,
        toReversePolish tokens = .ok output ↔
          ¬ Unbalanced tokens ∧
            ∃ order,
              ReleaseOrder tokens order ∧ order.map Prod.fst = output := by
  have succeeds := exists_toReversePolish_eq_ok_iff tokens
  rw [nested_iff_not_unbalanced] at succeeds
  refine ⟨toReversePolish_eq_error_iff tokens, ?_⟩
  intro output
  constructor
  · intro converted
    have balanced := succeeds.mp ⟨output, converted⟩
    have nested := (nested_iff_not_unbalanced tokens).mpr balanced
    exact ⟨balanced, exists_releaseOrder nested converted⟩
  · rintro ⟨balanced, order, isOrder, rfl⟩
    obtain ⟨output, converted⟩ := succeeds.mpr balanced
    have nested := (nested_iff_not_unbalanced tokens).mpr balanced
    obtain ⟨other, isOther, rfl⟩ := exists_releaseOrder nested converted
    rw [isOrder.unique isOther]
    exact converted

example :
    toReversePolish
        [.constant (.constant .e), .operator (.binary .add),
          .constant (.constant .pi), .operator (.binary .power),
          .constant (.constant .phi)] =
      .ok
        [.constant (.constant .e), .constant (.constant .pi),
          .constant (.constant .phi), .operator (.binary .power),
          .operator (.binary .add)] :=
  rfl

end

end Calculator

import Calculator.Proofs.Conversion.Groups

/-!
# Release points

An operand is released where it stands.  An operator or a function is released
at the first later token of its bracket group that binds at most as tightly
and waits itself; if there is none, at the closing bracket of the group; and
if no brackets are around the group, at the end.

The relation `ReleasePoint` says this in terms of positions.  The function
`releaseAt` finds the same place in one pass over the tokens that follow.
-/

namespace Calculator

/-- The operation is an operator or a function here. -/
def Symbol.Waits (used : Symbol) : Prop := used.role ≠ .constant

instance (used : Symbol) : Decidable used.Waits :=
  inferInstanceAs (Decidable (used.role ≠ .constant))

/-- A later position of the same group holds an operator or a function of at
most the given priority. -/
structure YieldsAt (tokens : List Token) (position priority later : Nat) :
    Prop where
  order : position < later
  sameGroup : SameGroup tokens position later
  yields : ∃ other : Symbol,
    tokens[later]? = some (.symbol other) ∧
      other.Waits ∧ other.priority ≤ priority

/-- The token at the first position is released at the second. -/
inductive ReleasePoint (tokens : List Token) (position : Nat) :
    Nat → Prop where
  | number {value : Float}
      (found : tokens[position]? = some (.number value)) :
      ReleasePoint tokens position position
  | constant {operation : Operation}
      (found : tokens[position]? = some (.constant operation)) :
      ReleasePoint tokens position position
  | yielding {used : Symbol} {point : Nat}
      (found : tokens[position]? = some (.symbol used))
      (waits : used.Waits)
      (yields : YieldsAt tokens position used.priority point)
      (first : ∀ earlier, earlier < point →
        ¬ YieldsAt tokens position used.priority earlier) :
      ReleasePoint tokens position point
  | closing {used : Symbol} {opening point : Nat}
      (found : tokens[position]? = some (.symbol used))
      (waits : used.Waits)
      (never : ∀ later, ¬ YieldsAt tokens position used.priority later)
      (group : Innermost tokens opening point position) :
      ReleasePoint tokens position point
  | ending {used : Symbol}
      (found : tokens[position]? = some (.symbol used))
      (waits : used.Waits)
      (never : ∀ later, ¬ YieldsAt tokens position used.priority later)
      (outside : ∀ first last, ¬ Encloses tokens first last position) :
      ReleasePoint tokens position tokens.length

section

variable {tokens : List Token}

theorem ReleasePoint.eq_of_operand {position point : Nat}
    (operand : ∀ used : Symbol,
      tokens[position]? = some (.symbol used) → ¬ used.Waits)
    (release : ReleasePoint tokens position point) :
    point = position := by
  cases release with
  | number found => rfl
  | constant found => rfl
  | yielding found waits => exact absurd waits (operand _ found)
  | closing found waits => exact absurd waits (operand _ found)
  | ending found waits => exact absurd waits (operand _ found)

/-- The three ways in which a waiting token can be released. -/
theorem ReleasePoint.cases_of_waits {position point : Nat} {used : Symbol}
    (found : tokens[position]? = some (.symbol used))
    (waits : used.Waits)
    (release : ReleasePoint tokens position point) :
    (YieldsAt tokens position used.priority point ∧
        ∀ earlier, earlier < point →
          ¬ YieldsAt tokens position used.priority earlier) ∨
      (∀ later, ¬ YieldsAt tokens position used.priority later) ∧
        ((∃ opening, Innermost tokens opening point position) ∨
          point = tokens.length ∧
            ∀ first last, ¬ Encloses tokens first last position) := by
  cases release with
  | number other => simp [found] at other
  | constant other =>
      obtain rfl : used = _ := by simpa [found] using other
      exact absurd rfl waits
  | yielding other _ yields first =>
      obtain rfl : used = _ := by simpa [found] using other
      exact Or.inl ⟨yields, first⟩
  | closing other _ never group =>
      obtain rfl : used = _ := by simpa [found] using other
      exact Or.inr ⟨never, Or.inl ⟨_, group⟩⟩
  | ending other _ never outside =>
      obtain rfl : used = _ := by simpa [found] using other
      exact Or.inr ⟨never, Or.inr ⟨rfl, outside⟩⟩

/-- A token has at most one release point. -/
theorem ReleasePoint.unique {position point other : Nat}
    (release : ReleasePoint tokens position point)
    (otherRelease : ReleasePoint tokens position other) :
    point = other := by
  cases release with
  | number found =>
      refine (otherRelease.eq_of_operand ?_).symm
      intro used isSymbol
      rw [found] at isSymbol
      cases isSymbol
  | constant found =>
      refine (otherRelease.eq_of_operand ?_).symm
      intro used isSymbol waits
      rw [found] at isSymbol
      cases isSymbol
      exact waits rfl
  | yielding found waits yields first =>
      rcases otherRelease.cases_of_waits found waits with
        ⟨otherYields, otherFirst⟩ | ⟨never, -⟩
      · rcases Nat.lt_trichotomy point other with before | same | after
        · exact absurd yields (otherFirst _ before)
        · exact same
        · exact absurd otherYields (first _ after)
      · exact absurd yields (never _)
  | closing found waits never group =>
      rcases otherRelease.cases_of_waits found waits with
        ⟨otherYields, -⟩ | ⟨-, ⟨opening, otherGroup⟩ | ⟨-, outside⟩⟩
      · exact absurd otherYields (never _)
      · exact (group.unique otherGroup).2
      · exact absurd group.toEncloses (outside _ _)
  | ending found waits never outside =>
      rcases otherRelease.cases_of_waits found waits with
        ⟨otherYields, -⟩ | ⟨-, ⟨opening, otherGroup⟩ | ⟨same, -⟩⟩
      · exact absurd otherYields (never _)
      · exact absurd otherGroup.toEncloses (outside _ _)
      · exact same.symm

end

/-! ## One pass over the tokens that follow -/

/-- Where a waiting token of the given priority is released, found among the
tokens from a position on.  The depth counts the brackets opened since. -/
def releaseAt (priority : Nat) : Nat → Nat → List Token → Nat
  | _, position, [] => position
  | depth, position, .openBracket :: rest =>
      releaseAt priority (depth + 1) (position + 1) rest
  | 0, position, .closeBracket :: _ => position
  | depth + 1, position, .closeBracket :: rest =>
      releaseAt priority depth (position + 1) rest
  | depth, position, .number _ :: rest =>
      releaseAt priority depth (position + 1) rest
  | 0, position, .symbol other :: rest =>
      if other.Waits ∧ other.priority ≤ priority then position
      else releaseAt priority 0 (position + 1) rest
  | depth + 1, position, .symbol _ :: rest =>
      releaseAt priority (depth + 1) (position + 1) rest

/-- At this position a waiting token is released whose group has the given
height. -/
structure Stop (tokens : List Token) (priority : Nat) (base : Int)
    (position : Nat) : Prop where
  level : height tokens position = base
  token : tokens[position]? = some .closeBracket ∨
    ∃ other : Symbol, tokens[position]? = some (.symbol other) ∧
      other.Waits ∧ other.priority ≤ priority

/-- The point is the first stop from a position on, or the end, and the
height does not fall below the base before it. -/
structure FirstStop (tokens : List Token) (priority : Nat) (base : Int)
    (position point : Nat) : Prop where
  order : position ≤ point
  above : ∀ place, position ≤ place → place ≤ point →
    base ≤ height tokens place
  none : ∀ place, position ≤ place → place < point →
    ¬ Stop tokens priority base place
  stops : Stop tokens priority base point ∨ point = tokens.length

section

variable {tokens : List Token} {priority : Nat} {base : Int}

theorem FirstStop.here {position : Nat}
    (stops : Stop tokens priority base position) :
    FirstStop tokens priority base position position := by
  refine ⟨Nat.le_refl _, ?_, ?_, Or.inl stops⟩
  · intro place after before
    obtain rfl : place = position := by omega
    exact Int.le_of_eq stops.level.symm
  · intro place after before
    omega

theorem FirstStop.atEnd {position : Nat}
    (high : base ≤ height tokens position)
    (same : position = tokens.length) :
    FirstStop tokens priority base position position := by
  refine ⟨Nat.le_refl _, ?_, ?_, Or.inr same⟩
  · intro place after before
    obtain rfl : place = position := by omega
    exact high
  · intro place after before
    omega

theorem FirstStop.later {position point : Nat}
    (notHere : ¬ Stop tokens priority base position)
    (high : base ≤ height tokens position)
    (rest : FirstStop tokens priority base (position + 1) point) :
    FirstStop tokens priority base position point := by
  refine ⟨Nat.le_of_succ_le rest.order, ?_, ?_, rest.stops⟩
  · intro place after before
    rcases Nat.eq_or_lt_of_le after with rfl | beyond
    · exact high
    · exact rest.above place beyond before
  · intro place after before
    rcases Nat.eq_or_lt_of_le after with rfl | beyond
    · exact notHere
    · exact rest.none place beyond before

theorem drop_succ_of_drop_eq_cons {position : Nat} {token : Token}
    {rest : List Token} (suffix : tokens.drop position = token :: rest) :
    tokens[position]? = some token ∧ tokens.drop (position + 1) = rest := by
  constructor
  · rw [← List.head?_drop, suffix, List.head?_cons]
  · rw [← List.drop_drop, suffix, List.drop_one, List.tail_cons]

/-- The pass ends at the first stop. -/
theorem firstStop_releaseAt (rest : List Token) (depth position : Nat)
    (suffix : tokens.drop position = rest)
    (within : position ≤ tokens.length)
    (level : height tokens position = base + depth) :
    FirstStop tokens priority base position
      (releaseAt priority depth position rest) := by
  induction rest generalizing depth position with
  | nil =>
      have past := List.drop_eq_nil_iff.mp suffix
      exact FirstStop.atEnd (by omega) (Nat.le_antisymm within past)
  | cons token rest ih =>
      obtain ⟨found, following⟩ := drop_succ_of_drop_eq_cons suffix
      have further : position + 1 ≤ tokens.length := by
        obtain ⟨inside, -⟩ := List.getElem?_eq_some_iff.mp found
        exact inside
      have high : base ≤ height tokens position := by omega
      cases token with
      | number value =>
          have unbracketed : Unbracketed tokens position := by
            simp [Unbracketed, found]
          have step := height_succ_of_unbracketed unbracketed
          refine FirstStop.later ?_ high
            (ih depth (position + 1) following further (by omega))
          intro stop
          simpa [found] using stop.token
      | openBracket =>
          have step := height_succ_of_openBracket found
          refine FirstStop.later ?_ high
            (ih (depth + 1) (position + 1) following further (by omega))
          intro stop
          simpa [found] using stop.token
      -- The position is level with the base exactly at depth zero.
      | closeBracket =>
          have step := height_succ_of_closeBracket found
          cases depth with
          | zero => exact FirstStop.here ⟨by omega, Or.inl found⟩
          | succ depth =>
              refine FirstStop.later ?_ high
                (ih depth (position + 1) following further (by omega))
              intro stop
              have low := stop.level
              omega
      | symbol other =>
          have unbracketed : Unbracketed tokens position := by
            simp [Unbracketed, found]
          have step := height_succ_of_unbracketed unbracketed
          cases depth with
          | zero =>
              rw [releaseAt]
              split
              · next yields =>
                  exact FirstStop.here
                    ⟨by omega, Or.inr ⟨other, found, yields⟩⟩
              · next stays =>
                  refine FirstStop.later ?_ high
                    (ih 0 (position + 1) following further (by omega))
                  intro stop
                  exact stays (by simpa [found] using stop.token)
          | succ depth =>
              refine FirstStop.later ?_ high
                (ih (depth + 1) (position + 1) following further
                  (by omega))
              intro stop
              have low := stop.level
              omega

end

/-! ## The pass finds the release point -/

section

variable {tokens : List Token} {position point : Nat} {used : Symbol}

theorem unbracketed_of_symbol
    (found : tokens[position]? = some (.symbol used)) :
    Unbracketed tokens position := by
  simp [Unbracketed, found]

/-- Up to the first stop, the tokens that a waiting one yields to are those of
its height. -/
theorem FirstStop.yieldsAt_iff (nested : Nested tokens)
    (found : tokens[position]? = some (.symbol used))
    {priority later : Nat}
    (firstStop : FirstStop tokens priority (height tokens (position + 1))
      (position + 1) point)
    (after : position < later) (before : later ≤ point) :
    YieldsAt tokens position priority later ↔
      height tokens later = height tokens (position + 1) ∧
        ∃ other : Symbol, tokens[later]? = some (.symbol other) ∧
          other.Waits ∧ other.priority ≤ priority := by
  have unbracketed := unbracketed_of_symbol found
  constructor
  · rintro ⟨-, sameGroup, other, foundOther, yields⟩
    have level := (nested.sameGroup_iff after unbracketed
      (unbracketed_of_symbol foundOther)).mp sameGroup
    exact ⟨level.returns, other, foundOther, yields⟩
  · rintro ⟨returns, other, foundOther, yields⟩
    refine ⟨after, ?_, other, foundOther, yields⟩
    refine (nested.sameGroup_iff after unbracketed
      (unbracketed_of_symbol foundOther)).mpr ⟨returns, ?_⟩
    intro place beyond bound
    exact firstStop.above place beyond (Nat.le_trans bound before)

/-- No pair around the token closes before the first stop. -/
theorem FirstStop.le_of_encloses {priority first last : Nat}
    (firstStop : FirstStop tokens priority (height tokens (position + 1))
      (position + 1) point)
    (unbracketed : Unbracketed tokens position)
    (encloses : Encloses tokens first last position) :
    point ≤ last := by
  have step := height_succ_of_unbracketed unbracketed
  have bound := encloses.height_le
  have rise := encloses.toBracketPair.height_succ_first
  have fall := encloses.toBracketPair.height_succ_last
  by_contra early
  have high := firstStop.above (last + 1)
    (by have := encloses.before; omega) (by omega)
  omega

/-- Where the first stop is a closing bracket, it closes the group. -/
theorem FirstStop.exists_innermost (nested : Nested tokens) {priority : Nat}
    (firstStop : FirstStop tokens priority (height tokens (position + 1))
      (position + 1) point)
    (unbracketed : Unbracketed tokens position)
    (level : height tokens point = height tokens (position + 1))
    (closes : tokens[point]? = some .closeBracket) :
    ∃ opening, Innermost tokens opening point position := by
  have step := height_succ_of_unbracketed unbracketed
  have fall := height_succ_of_closeBracket closes
  have nonneg := nested.height_nonneg (point + 1)
  obtain ⟨first, last, innermost, same⟩ :=
    nested.exists_innermost unbracketed (by omega)
  have late := firstStop.le_of_encloses unbracketed innermost.toEncloses
  have early : last ≤ point := by
    by_contra beyond
    have order := firstStop.order
    have high := innermost.toBracketPair.level.above (point + 1)
      (by have := innermost.after; omega) (by omega)
    omega
  obtain rfl : last = point := Nat.le_antisymm early late
  exact ⟨first, innermost⟩

theorem FirstStop.releasePoint (nested : Nested tokens)
    (found : tokens[position]? = some (.symbol used))
    (waits : used.Waits)
    (firstStop : FirstStop tokens used.priority
      (height tokens (position + 1)) (position + 1) point) :
    ReleasePoint tokens position point := by
  have unbracketed := unbracketed_of_symbol found
  have notBefore : ∀ later, later < point →
      ¬ YieldsAt tokens position used.priority later := by
    intro later before yields
    obtain ⟨returns, other⟩ := (firstStop.yieldsAt_iff nested found
      yields.order (Nat.le_of_lt before)).mp yields
    exact firstStop.none later yields.order before ⟨returns, Or.inr other⟩
  rcases firstStop.stops with ⟨level, closes | yields⟩ | atEnd
  · obtain ⟨opening, innermost⟩ :=
      firstStop.exists_innermost nested unbracketed level closes
    refine ReleasePoint.closing found waits ?_ innermost
    intro later yields
    obtain ⟨other, foundOther, -⟩ := yields.yields
    rcases Nat.lt_trichotomy later point with before | rfl | beyond
    · exact notBefore later before yields
    · simp [closes] at foundOther
    -- Behind the closing bracket the height has fallen below the group's.
    · have fall := height_succ_of_closeBracket closes
      have order := firstStop.order
      have levels := (nested.sameGroup_iff yields.order unbracketed
        (unbracketed_of_symbol foundOther)).mp yields.sameGroup
      have high := levels.above (point + 1) (by omega) beyond
      omega
  · exact ReleasePoint.yielding found waits
      ((firstStop.yieldsAt_iff nested found firstStop.order
        (Nat.le_refl _)).mpr ⟨level, yields⟩) notBefore
  · subst atEnd
    refine ReleasePoint.ending found waits ?_ ?_
    · intro later yields
      obtain ⟨other, foundOther, -⟩ := yields.yields
      obtain ⟨inside, -⟩ := List.getElem?_eq_some_iff.mp foundOther
      exact notBefore later inside yields
    · intro first last encloses
      obtain ⟨inside, -⟩ := List.getElem?_eq_some_iff.mp encloses.closes
      have late := firstStop.le_of_encloses unbracketed encloses
      omega

/-- Where the token at a position is released. -/
def releasePoint (tokens : List Token) (position : Nat) : Nat :=
  match tokens[position]? with
  | some (.symbol used) =>
      if used.Waits then
        releaseAt used.priority 0 (position + 1)
          (tokens.drop (position + 1))
      else position
  | _ => position

theorem releasePoint_of_waits
    (found : tokens[position]? = some (.symbol used))
    (waits : used.Waits) :
    releasePoint tokens position =
      releaseAt used.priority 0 (position + 1)
        (tokens.drop (position + 1)) := by
  simp [releasePoint, found, waits]

/-- In nested brackets every token that is no bracket has a release point. -/
theorem Nested.isReleasePoint (nested : Nested tokens) {token : Token}
    (found : tokens[position]? = some token)
    (unbracketed : Unbracketed tokens position) :
    ReleasePoint tokens position (releasePoint tokens position) := by
  have inside := (List.getElem?_eq_some_iff.mp found).1
  cases token with
  | openBracket => exact absurd found unbracketed.1
  | closeBracket => exact absurd found unbracketed.2
  | number value =>
      simp only [releasePoint, found]
      exact ReleasePoint.number found
  | symbol used =>
      by_cases waits : used.Waits
      · rw [releasePoint_of_waits found waits]
        exact (firstStop_releaseAt _ 0 (position + 1) rfl inside
          (by simp)).releasePoint nested found waits
      · obtain ⟨role, operation⟩ := used
        obtain rfl : role = .constant := not_not.mp waits
        simp only [releasePoint, found, waits, if_false]
        exact ReleasePoint.constant found

end

end Calculator

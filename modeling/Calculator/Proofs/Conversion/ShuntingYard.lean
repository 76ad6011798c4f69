import Calculator.Proofs.Conversion.Order
import Mathlib.Data.List.Chain
import Mathlib.Data.List.Perm.Subperm

/-!
# One stack for symbols and brackets

A conversion keeps the symbols that wait in a group of their own for every open
bracket.  Laid one upon another, with an entry for each bracket between them,
the groups are one stack, and three loops at its top do all the work: a symbol
pops the symbols that bind at least as tightly as it does, a closing bracket
pops everything down to the next bracket, and the end pops all.  Both ways of
keeping the symbols agree on every row of tokens, failures included.

A symbol is only put on a bracket or on a symbol that binds less tightly, and
popping takes entries off the top alone.  So between its brackets the stack is
sorted at every moment, and as there are four priorities, no more than four
symbols wait between two brackets.
-/

namespace Calculator

/-- What stands on the stack. -/
inductive StackEntry where
  /-- A bracket that is still open. -/
  | bracket
  /-- An operator or a function that waits. -/
  | waiting (used : Symbol)
  deriving DecidableEq

namespace StackEntry

/-- The token that waits here. -/
def token? : StackEntry → Option Token
  | .bracket => none
  | .waiting used => some (.symbol used)

/-- The first entry may stand right above the second: a symbol stands on
brackets and on symbols that bind less tightly. -/
def StandsOn : StackEntry → StackEntry → Prop
  | .waiting above, .waiting below => below.priority < above.priority
  | _, _ => True

end StackEntry

/-- The state between two tokens of a conversion with a single stack. -/
structure ShuntingYard where
  released : List Token
  /-- The open brackets and the symbols that wait, the top first. -/
  stack : List StackEntry

namespace ShuntingYard

/-- Before the first token. -/
def start : ShuntingYard := ⟨[], []⟩

/-- Pops the symbols on top that bind at least as tightly as the priority
says. -/
def popWhile (priority : Nat) : List Token → List StackEntry → ShuntingYard
  | released, .waiting used :: below =>
      if used.priority < priority then
        ⟨released, .waiting used :: below⟩
      else
        popWhile priority (released ++ [.symbol used]) below
  | released, .bracket :: below => ⟨released, .bracket :: below⟩
  | released, [] => ⟨released, []⟩

/-- Pops the symbols above the next bracket, and the bracket itself. -/
def popUntilBracket : List Token → List StackEntry →
    Except CalculationError ShuntingYard
  | _, [] => .error .unmatchedBracket
  | released, .bracket :: below => .ok ⟨released, below⟩
  | released, .waiting used :: below =>
      popUntilBracket (released ++ [.symbol used]) below

/-- Pops all symbols, if no bracket is among them. -/
def popAll : List Token → List StackEntry →
    Except CalculationError (List Token)
  | released, [] => .ok released
  | _, .bracket :: _ => .error .unmatchedBracket
  | released, .waiting used :: below =>
      popAll (released ++ [.symbol used]) below

/-- Takes in the next token. -/
def push (yard : ShuntingYard) (token : Token) :
    Except CalculationError ShuntingYard :=
  match token with
  | .number _ => .ok { yard with released := yard.released ++ [token] }
  | .symbol used =>
      if used.Waits then
        let popped := popWhile used.priority yard.released yard.stack
        .ok { popped with stack := .waiting used :: popped.stack }
      else
        .ok { yard with released := yard.released ++ [token] }
  | .openBracket => .ok { yard with stack := .bracket :: yard.stack }
  | .closeBracket => popUntilBracket yard.released yard.stack

/-- Ends the row of tokens. -/
def finish (yard : ShuntingYard) : Except CalculationError (List Token) :=
  popAll yard.released yard.stack

/-! ## The loops -/

/-- No symbol on top binds as tightly as the priority says. -/
def StopsAt (priority : Nat) (stack : List StackEntry) : Prop :=
  ∀ used, stack.head? = some (.waiting used) → used.priority < priority

/-- On top of a stack are the symbols that bind at least as tightly as a
priority says, up to an entry that does not. -/
theorem exists_popped (priority : Nat) (stack : List StackEntry) :
    ∃ (popped : List Symbol) (below : List StackEntry),
      stack = popped.map .waiting ++ below ∧
        (∀ used ∈ popped, priority ≤ used.priority) ∧
          StopsAt priority below := by
  induction stack with
  | nil => exact ⟨[], [], rfl, by simp, by simp [StopsAt]⟩
  | cons entry stack ih =>
      cases entry with
      | bracket => exact ⟨[], _, rfl, by simp, by simp [StopsAt]⟩
      | waiting used =>
          by_cases weaker : used.priority < priority
          · exact ⟨[], _, rfl, by simp, by simpa [StopsAt] using weaker⟩
          · obtain ⟨popped, below, rfl, binds, stops⟩ := ih
            refine ⟨used :: popped, below, rfl, ?_, stops⟩
            exact List.forall_mem_cons.mpr ⟨Nat.not_lt.mp weaker, binds⟩

theorem popWhile_eq {priority : Nat} {popped : List Symbol}
    {below : List StackEntry}
    (binds : ∀ used ∈ popped, priority ≤ used.priority)
    (stops : StopsAt priority below) (released : List Token) :
    popWhile priority released (popped.map .waiting ++ below) =
      ⟨released ++ popped.map .symbol, below⟩ := by
  induction popped generalizing released with
  | nil =>
      cases below with
      | nil => simp [popWhile]
      | cons entry below =>
          cases entry with
          | bracket => simp [popWhile]
          | waiting used => simp [popWhile, stops used rfl]
  | cons used popped ih =>
      obtain ⟨tighter, others⟩ := List.forall_mem_cons.mp binds
      rw [List.map_cons, List.cons_append, popWhile,
        if_neg (Nat.not_lt.mpr tighter), ih others]
      simp

theorem popUntilBracket_eq_ok (popped : List Symbol)
    (below : List StackEntry) (released : List Token) :
    popUntilBracket released (popped.map .waiting ++ .bracket :: below) =
      .ok ⟨released ++ popped.map .symbol, below⟩ := by
  induction popped generalizing released with
  | nil => simp [popUntilBracket]
  | cons used popped ih =>
      rw [List.map_cons, List.cons_append, popUntilBracket, ih]
      simp

theorem popUntilBracket_eq_error (popped : List Symbol)
    (released : List Token) :
    popUntilBracket released (popped.map .waiting) =
      .error .unmatchedBracket := by
  induction popped generalizing released with
  | nil => rfl
  | cons used popped ih => exact ih _

theorem popAll_eq_ok (popped : List Symbol) (released : List Token) :
    popAll released (popped.map .waiting) =
      .ok (released ++ popped.map .symbol) := by
  induction popped generalizing released with
  | nil => simp [popAll]
  | cons used popped ih =>
      rw [List.map_cons, popAll, ih]
      simp

theorem popAll_eq_error (popped : List Symbol) (below : List StackEntry)
    (released : List Token) :
    popAll released (popped.map .waiting ++ .bracket :: below) =
      .error .unmatchedBracket := by
  induction popped generalizing released with
  | nil => rfl
  | cons used popped ih => exact ih _

/-- A stack holds symbols only, or symbols above a bracket. -/
theorem eq_map_waiting_or (stack : List StackEntry) :
    ∃ popped : List Symbol,
      stack = popped.map .waiting ∨
        ∃ below, stack = popped.map .waiting ++ .bracket :: below := by
  obtain ⟨popped, below, rfl, -, stops⟩ := exists_popped 0 stack
  refine ⟨popped, ?_⟩
  cases below with
  | nil => exact Or.inl (List.append_nil _)
  -- No priority is below zero, so that only a bracket can stop.
  | cons entry below =>
      cases entry with
      | bracket => exact Or.inr ⟨below, rfl⟩
      | waiting used => exact absurd (stops used rfl) (Nat.not_lt_zero _)

/-! ## One token -/

/-- What a token does to a yard that takes it in. -/
inductive Takes (yard : ShuntingYard) : Token → ShuntingYard → Prop
  /-- A number passes. -/
  | number {value : Float} :
      Takes yard (.number value)
        { yard with released := yard.released ++ [.number value] }
  /-- A constant passes. -/
  | constant {operation : Operation} :
      Takes yard (.constant operation)
        { yard with released := yard.released ++ [.constant operation] }
  /-- A symbol that waits pops what binds at least as tightly, and comes to
  stand on an entry that does not. -/
  | symbol {used : Symbol} {popped : List Symbol}
      {below : List StackEntry} (waits : used.Waits)
      (stack : yard.stack = popped.map .waiting ++ below)
      (binds : ∀ other ∈ popped, used.priority ≤ other.priority)
      (stops : StopsAt used.priority below) :
      Takes yard (.symbol used)
        ⟨yard.released ++ popped.map .symbol, .waiting used :: below⟩
  /-- An opening bracket stands on anything. -/
  | opening :
      Takes yard .openBracket { yard with stack := .bracket :: yard.stack }
  /-- A closing bracket takes the next bracket away, with all above it. -/
  | closing {popped : List Symbol} {below : List StackEntry}
      (stack : yard.stack = popped.map .waiting ++ .bracket :: below) :
      Takes yard .closeBracket
        ⟨yard.released ++ popped.map .symbol, below⟩

theorem takes_of_push_eq_ok {yard next : ShuntingYard} {token : Token}
    (pushed : yard.push token = .ok next) : Takes yard token next := by
  obtain ⟨released, stack⟩ := yard
  cases token with
  | number value =>
      obtain rfl := Except.ok.inj pushed
      exact Takes.number
  | openBracket =>
      obtain rfl := Except.ok.inj pushed
      exact Takes.opening
  | closeBracket =>
      change popUntilBracket released stack = .ok next at pushed
      obtain ⟨popped, rfl | ⟨below, rfl⟩⟩ := eq_map_waiting_or stack
      · rw [popUntilBracket_eq_error] at pushed
        cases pushed
      · rw [popUntilBracket_eq_ok] at pushed
        obtain rfl := Except.ok.inj pushed
        exact Takes.closing rfl
  | symbol used =>
      rw [push] at pushed
      by_cases waits : used.Waits
      · obtain ⟨popped, below, rfl, binds, stops⟩ :=
          exists_popped used.priority stack
        rw [if_pos waits, popWhile_eq binds stops] at pushed
        obtain rfl := Except.ok.inj pushed
        exact Takes.symbol waits rfl binds stops
      · rw [if_neg waits] at pushed
        obtain rfl := Except.ok.inj pushed
        obtain ⟨role, operation⟩ := used
        obtain rfl : role = .constant := not_not.mp waits
        exact Takes.constant

/-! ## What holds at every moment -/

/-- What is known when some tokens have been taken in: every entry may stand on
the one below, the brackets on the stack are those that have not been closed,
and no token is lost or doubled. -/
structure Follows (pushed : List Token) (yard : ShuntingYard) : Prop where
  sorted : yard.stack.IsChain StackEntry.StandsOn
  brackets : yard.stack.count .bracket + pushed.count .closeBracket =
    pushed.count .openBracket
  complete : (yard.released ++ yard.stack.filterMap StackEntry.token?).Perm
    (pushed.filter fun token => !token.isBracket)

theorem follows_start : Follows [] start :=
  ⟨List.IsChain.nil, rfl, List.Perm.refl _⟩

/-- The tokens on the stack, from the top down. -/
theorem filterMap_token?_append (popped : List Symbol)
    (below : List StackEntry) :
    (popped.map StackEntry.waiting ++ below).filterMap StackEntry.token? =
      popped.map Token.symbol ++ below.filterMap StackEntry.token? := by
  rw [List.filterMap_append, List.filterMap_map, ← List.filterMap_eq_map]
  rfl

theorem count_bracket_append (popped : List Symbol)
    (below : List StackEntry) :
    (popped.map StackEntry.waiting ++ below).count .bracket =
      below.count .bracket := by
  have noBracket : (popped.map StackEntry.waiting).count .bracket = 0 :=
    List.count_eq_zero.mpr (by simp)
  rw [List.count_append, noBracket, Nat.zero_add]

section

variable {pushed : List Token} {yard next : ShuntingYard} {token : Token}
  {popped : List Symbol} {below : List StackEntry}

/-- Where the loop stops, the symbol that made it pop may stand. -/
theorem isChain_cons_of_stopsAt {used : Symbol}
    (sorted : below.IsChain StackEntry.StandsOn)
    (stops : StopsAt used.priority below) :
    (StackEntry.waiting used :: below).IsChain StackEntry.StandsOn := by
  refine List.isChain_cons.mpr ⟨?_, sorted⟩
  intro entry isTop
  cases entry with
  | bracket => trivial
  | waiting top => exact stops top isTop

theorem filter_append_of_isBracket
    (isBracket : token.isBracket = true) (pushed : List Token) :
    ((pushed ++ [token]).filter fun token => !token.isBracket) =
      pushed.filter fun token => !token.isBracket := by
  simp [List.filter_append, isBracket]

theorem filter_append_of_isBracket_eq_false
    (noBracket : token.isBracket = false) (pushed : List Token) :
    ((pushed ++ [token]).filter fun token => !token.isBracket) =
      (pushed.filter fun token => !token.isBracket) ++ [token] := by
  simp [List.filter_append, noBracket]

/-- One more token among those that are kept. -/
theorem perm_insert {front back kept : List Token} (token : Token)
    (complete : (front ++ back).Perm kept) :
    (front ++ token :: back).Perm (kept ++ [token]) :=
  List.perm_middle.trans
    ((complete.cons token).trans (List.perm_append_singleton _ _).symm)

/-- A token that passes at once leaves the stack as it is. -/
theorem Follows.passes (follows : Follows pushed yard)
    (noBracket : token.isBracket = false) :
    Follows (pushed ++ [token])
      { yard with released := yard.released ++ [token] } := by
  obtain ⟨sorted, brackets, complete⟩ := follows
  refine ⟨sorted, ?_, ?_⟩
  · cases token with
    | number value => simpa using brackets
    | symbol used => simpa using brackets
    | openBracket => cases noBracket
    | closeBracket => cases noBracket
  · rw [filter_append_of_isBracket_eq_false noBracket, List.append_assoc]
    exact perm_insert token complete

/-- Popping symbols keeps what is known: they are released in the order in
which they were held. -/
theorem Follows.pop (follows : Follows pushed yard)
    (stack : yard.stack = popped.map .waiting ++ below) :
    Follows pushed ⟨yard.released ++ popped.map .symbol, below⟩ := by
  obtain ⟨sorted, brackets, complete⟩ := follows
  rw [stack] at sorted brackets complete
  rw [count_bracket_append] at brackets
  rw [filterMap_token?_append, ← List.append_assoc] at complete
  exact ⟨sorted.right_of_append, brackets, complete⟩

/-- Every token that is taken in keeps what is known. -/
theorem Follows.takes (follows : Follows pushed yard)
    (takes : Takes yard token next) : Follows (pushed ++ [token]) next := by
  cases takes with
  | number => exact follows.passes rfl
  | constant => exact follows.passes rfl
  | symbol waits stack binds stops =>
      obtain ⟨sorted, brackets, complete⟩ := follows.pop stack
      refine ⟨isChain_cons_of_stopsAt sorted stops, ?_, ?_⟩
      · simpa using brackets
      · rw [filter_append_of_isBracket_eq_false rfl]
        exact perm_insert _ complete
  | opening =>
      obtain ⟨sorted, brackets, complete⟩ := follows
      refine ⟨List.isChain_cons.mpr ⟨fun _ _ => trivial, sorted⟩, ?_, ?_⟩
      · have opened := congrArg (· + 1) brackets
        simpa [Nat.add_right_comm] using opened
      · rw [filter_append_of_isBracket rfl]
        exact complete
  | closing stack =>
      obtain ⟨sorted, brackets, complete⟩ := follows.pop stack
      rw [List.count_cons_self] at brackets
      refine ⟨(List.isChain_cons.mp sorted).2, ?_, ?_⟩
      · simpa [Nat.add_right_comm, ← Nat.add_assoc] using brackets
      · rw [filter_append_of_isBracket rfl]
        exact complete

/-- A run keeps what is known. -/
theorem Follows.foldlM {tokens : List Token} (follows : Follows pushed yard)
    (ran : tokens.foldlM push yard = .ok next) :
    Follows (pushed ++ tokens) next := by
  induction tokens generalizing pushed yard with
  | nil =>
      obtain rfl := Except.ok.inj ran
      simpa using follows
  | cons token tokens ih =>
      rw [List.foldlM_cons, Outcome.bind_eq_ok_iff] at ran
      obtain ⟨first, taken, ran⟩ := ran
      have after := ih (follows.takes (takes_of_push_eq_ok taken)) ran
      simpa using after

/-- Between the brackets of the stack the priorities strictly decrease from
the top to the bottom. -/
theorem Follows.pairwise (follows : Follows pushed yard)
    {group : List Symbol} (within : group.map .waiting <:+: yard.stack) :
    (group.map Symbol.priority).Pairwise (· > ·) := by
  obtain ⟨above, under, parts⟩ := within
  have sorted := follows.sorted
  rw [← parts] at sorted
  have chain := sorted.left_of_append.right_of_append
  rw [List.isChain_map] at chain
  rw [← List.isChain_iff_pairwise, List.isChain_map]
  exact chain

end

end ShuntingYard

/-- No more symbols than there are priorities can stand on one another. -/
theorem length_le_four_of_pairwise {group : List Symbol}
    (sorted : (group.map Symbol.priority).Pairwise (· > ·)) :
    group.length ≤ 4 := by
  have different : (group.map Symbol.priority).Nodup :=
    sorted.imp fun above => Nat.ne_of_gt above
  have bounded : group.map Symbol.priority ⊆ List.range 4 := by
    intro priority member
    obtain ⟨used, -, rfl⟩ := List.mem_map.mp member
    exact List.mem_range.mpr (Nat.lt_succ_of_le used.operation.priority_le)
  simpa using (List.subperm_of_subset different bounded).length_le

/-! ## Both ways of keeping the symbols -/

namespace Conversion

/-- What stands under the innermost group: for every open bracket the bracket
itself, and under it the symbols that wait around it. -/
def underneath (enclosing : List (List Symbol)) : List StackEntry :=
  enclosing.flatMap fun around => .bracket :: around.map .waiting

/-- All that waits, on one stack. -/
def stack (conversion : Conversion) : List StackEntry :=
  conversion.waiting.map .waiting ++ underneath conversion.enclosing

/-- The conversion with a single stack. -/
def yard (conversion : Conversion) : ShuntingYard :=
  ⟨conversion.released.toList, conversion.stack⟩

theorem yard_start : start.yard = .start := rfl

theorem stack_of_enclosing_eq_nil {conversion : Conversion}
    (outermost : conversion.enclosing = []) :
    conversion.stack = conversion.waiting.map .waiting := by
  rw [stack, outermost]
  exact List.append_nil _

theorem stack_of_enclosing_eq_cons {conversion : Conversion}
    {around : List Symbol} {enclosing : List (List Symbol)}
    (inside : conversion.enclosing = around :: enclosing) :
    conversion.stack =
      conversion.waiting.map .waiting ++
        .bracket :: (around.map .waiting ++ underneath enclosing) := by
  rw [stack, inside]
  rfl

/-- No symbol stands on top of what is underneath a group. -/
theorem stopsAt_underneath (priority : Nat)
    (enclosing : List (List Symbol)) :
    ShuntingYard.StopsAt priority (underneath enclosing) := by
  cases enclosing with
  | nil => exact nofun
  | cons around enclosing => exact nofun

/-- The loop that pops while symbols bind at least as tightly pops the same
ones as `await`. -/
theorem yard_await (conversion : Conversion) (used : Symbol) :
    (conversion.await used).yard =
      let popped := ShuntingYard.popWhile used.priority
        conversion.yard.released conversion.yard.stack
      { popped with stack := .waiting used :: popped.stack } := by
  let binds (other : Symbol) : Bool := used.priority ≤ other.priority
  have parts : conversion.stack =
      (conversion.waiting.takeWhile binds).map .waiting ++
        ((conversion.waiting.dropWhile binds).map .waiting ++
          underneath conversion.enclosing) := by
    rw [← List.append_assoc, ← List.map_append,
      List.takeWhile_append_dropWhile]
    rfl
  have tighter : ∀ other ∈ conversion.waiting.takeWhile binds,
      used.priority ≤ other.priority := by
    intro other member
    have isTight : binds other = true := List.mem_takeWhile_imp member
    exact of_decide_eq_true isTight
  have stops : ShuntingYard.StopsAt used.priority
      ((conversion.waiting.dropWhile binds).map .waiting ++
        underneath conversion.enclosing) := by
    cases left : conversion.waiting.dropWhile binds with
    | nil => exact stopsAt_underneath _ _
    | cons top others =>
        have weaker := List.head?_dropWhile_not binds conversion.waiting
        rw [left] at weaker
        simpa [ShuntingYard.StopsAt, binds] using weaker
  simp only [yard, parts, ShuntingYard.popWhile_eq tighter stops]
  simp [await, release, stack, binds]

/-- A token does the same to one stack as to groups. -/
theorem push_yard (conversion : Conversion) (token : Token) :
    conversion.yard.push token = (conversion.push token).map yard := by
  cases token with
  | number value => simp [ShuntingYard.push, yard, stack, Except.map]
  | openBracket =>
      simp [ShuntingYard.push, yard, stack, underneath, Except.map]
  | closeBracket =>
      rw [ShuntingYard.push, yard]
      cases isInside : conversion.enclosing with
      | nil =>
          rw [push_closeBracket_of_enclosing_eq_nil isInside,
            stack_of_enclosing_eq_nil isInside,
            ShuntingYard.popUntilBracket_eq_error]
          rfl
      | cons around enclosing =>
          rw [push_closeBracket_of_enclosing_eq_cons isInside,
            stack_of_enclosing_eq_cons isInside,
            ShuntingYard.popUntilBracket_eq_ok]
          simp [Except.map, yard, stack]
  | symbol used =>
      by_cases waits : used.Waits
      · rw [push_symbol_of_role_ne_constant _ waits, ShuntingYard.push,
          if_pos waits]
        exact congrArg Except.ok (yard_await conversion used).symm
      · obtain ⟨role, operation⟩ := used
        obtain rfl : role = .constant := not_not.mp waits
        simp [ShuntingYard.push, waits, yard, stack, Except.map]

theorem foldlM_push_yard (tokens : List Token) (conversion : Conversion) :
    tokens.foldlM ShuntingYard.push conversion.yard =
      (tokens.foldlM push conversion).map yard := by
  induction tokens generalizing conversion with
  | nil => rfl
  | cons token tokens ih =>
      rw [List.foldlM_cons, List.foldlM_cons, push_yard]
      cases conversion.push token with
      | error failure => rfl
      | ok next => exact ih next

theorem finish_yard (conversion : Conversion) :
    conversion.yard.finish = conversion.finish := by
  rw [ShuntingYard.finish, yard, finish]
  cases isInside : conversion.enclosing with
  | nil =>
      rw [stack_of_enclosing_eq_nil isInside, ShuntingYard.popAll_eq_ok,
        toList_released_release]
      rfl
  | cons around enclosing =>
      rw [stack_of_enclosing_eq_cons isInside, ShuntingYard.popAll_eq_error]
      rfl

end Conversion

/-- Tokens are brought into the same order with a single stack, and fail with
it alike. -/
theorem toReversePolish_eq_shuntingYard (tokens : List Token) :
    toReversePolish tokens =
      tokens.foldlM ShuntingYard.push .start >>= ShuntingYard.finish := by
  rw [← Conversion.yard_start, Conversion.foldlM_push_yard]
  rw [toReversePolish]
  cases tokens.foldlM Conversion.push Conversion.start with
  | error failure => rfl
  | ok last => exact (Conversion.finish_yard last).symm

/-! ## The stack at every moment -/

theorem follows_yard {tokens : List Token} {conversion : Conversion}
    (reached : tokens.foldlM Conversion.push .start = .ok conversion) :
    tokens.foldlM ShuntingYard.push .start = .ok conversion.yard ∧
      ShuntingYard.Follows tokens conversion.yard := by
  have ran : tokens.foldlM ShuntingYard.push .start =
      .ok conversion.yard := by
    rw [← Conversion.yard_start, Conversion.foldlM_push_yard, reached]
    rfl
  exact ⟨ran, ShuntingYard.follows_start.foldlM ran⟩

/-- However many tokens have been taken in, the stack is the one that the
loops leave, and it is sorted between its brackets: in a row of symbols that no
bracket interrupts the priorities strictly decrease from the top to the bottom,
so there are at most four.  The brackets on the stack are those still open, and
every token that is no bracket either waits or has been released. -/
theorem stack_sorted_between_brackets {tokens : List Token} {count : Nat}
    {conversion : Conversion}
    (reached : (tokens.take count).foldlM Conversion.push .start =
      .ok conversion) :
    (tokens.take count).foldlM ShuntingYard.push .start =
        .ok ⟨conversion.released.toList, conversion.stack⟩ ∧
      (∀ group : List Symbol, group.map .waiting <:+: conversion.stack →
        (group.map Symbol.priority).Pairwise (· > ·) ∧
          group.length ≤ 4) ∧
      (conversion.stack.count .bracket : Int) = height tokens count ∧
      (conversion.stack.filterMap StackEntry.token?).countP
            (fun token => !token.isBracket) +
          conversion.released.toList.countP
            (fun token => !token.isBracket) =
        (tokens.take count).countP fun token => !token.isBracket := by
  obtain ⟨ran, follows⟩ := follows_yard reached
  refine ⟨ran, ?_, ?_, ?_⟩
  · intro group within
    have sorted := follows.pairwise within
    exact ⟨sorted, length_le_four_of_pairwise sorted⟩
  · have brackets := follows.brackets
    rw [height]
    change conversion.stack.count .bracket + _ = _ at brackets
    omega
  · have complete := follows.complete.countP_eq
      fun token => !token.isBracket
    simp only [List.countP_append, List.countP_filter, Bool.and_self]
      at complete
    exact (Nat.add_comm _ _).trans complete

/-- Behind an open bracket a difference waits, and below the bracket symbols of
all four priorities. -/
theorem stack_sorted_between_brackets_four :
    ∃ conversion : Conversion,
      ([.number 1, .operator (.binary .add), .number 2,
            .operator (.binary .multiply), .number 3,
            .operator (.binary .power), .operator (.unary .negate),
            .openBracket, .number 4, .operator (.binary .subtract),
            .number 5, .closeBracket].take 10).foldlM
          Conversion.push .start = .ok conversion ∧
        conversion.stack =
          .waiting ⟨.operator, .binary .subtract⟩ :: .bracket ::
            [⟨.operator, .unary .negate⟩, ⟨.operator, .binary .power⟩,
              ⟨.operator, .binary .multiply⟩,
              ⟨.operator, .binary .add⟩].map .waiting ∧
        [3, 2, 1, 0].Pairwise (· > ·) ∧
        (conversion.stack.count .bracket : Int) = 1 ∧
        (conversion.stack.filterMap StackEntry.token?).countP
              (fun token => !token.isBracket) +
            conversion.released.toList.countP
              (fun token => !token.isBracket) = 9 := by
  have reached :
      ([.number 1, .operator (.binary .add), .number 2,
            .operator (.binary .multiply), .number 3,
            .operator (.binary .power), .operator (.unary .negate),
            .openBracket, .number 4, .operator (.binary .subtract),
            .number 5, .closeBracket].take 10).foldlM
          Conversion.push .start =
        .ok ⟨#[.number 1, .number 2, .number 3, .number 4],
          [⟨.operator, .binary .subtract⟩],
          [[⟨.operator, .unary .negate⟩, ⟨.operator, .binary .power⟩,
            ⟨.operator, .binary .multiply⟩,
            ⟨.operator, .binary .add⟩]]⟩ := rfl
  obtain ⟨-, sorted, brackets, complete⟩ :=
    stack_sorted_between_brackets reached
  obtain ⟨decreasing, -⟩ := sorted
    [⟨.operator, .unary .negate⟩, ⟨.operator, .binary .power⟩,
      ⟨.operator, .binary .multiply⟩, ⟨.operator, .binary .add⟩]
    ⟨[.waiting ⟨.operator, .binary .subtract⟩, .bracket], [], rfl⟩
  exact ⟨_, reached, rfl, decreasing, brackets, complete⟩

end Calculator

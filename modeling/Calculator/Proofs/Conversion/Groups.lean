import Calculator.Expression.Token
import Mathlib.Data.Nat.Find

/-!
# Bracket pairs and bracket groups

Two brackets of a row of tokens form a pair when the tokens between them are
properly nested.  Two positions are in the same group when the same pair is
the innermost one around them, or when no pair is around either of them.

Groups are compared through *heights*: the height of a position is the number
of brackets that are open there.  In a properly nested row two positions
without brackets are in the same group exactly when they have the same height
and no position between them is lower.
-/

namespace Calculator

/-- The brackets of the tokens are properly nested: no prefix holds more
closing than opening brackets, and all tokens hold as many of each. -/
structure Nested (tokens : List Token) : Prop where
  prefixes : ∀ count,
    (tokens.take count).count .closeBracket ≤
      (tokens.take count).count .openBracket
  total : tokens.count .openBracket = tokens.count .closeBracket

/-- The tokens strictly between two positions. -/
def between (tokens : List Token) (first last : Nat) : List Token :=
  (tokens.take last).drop (first + 1)

/-- Two positions hold a bracket and its partner. -/
structure BracketPair (tokens : List Token) (first last : Nat) : Prop where
  opens : tokens[first]? = some .openBracket
  closes : tokens[last]? = some .closeBracket
  order : first < last
  nested : Nested (between tokens first last)

/-- A bracket pair stands around a position. -/
structure Encloses (tokens : List Token) (first last position : Nat) : Prop
    extends BracketPair tokens first last where
  after : first < position
  before : position < last

/-- A bracket pair stands around a position, and every other such pair stands
around that pair. -/
structure Innermost (tokens : List Token) (first last position : Nat) : Prop
    extends Encloses tokens first last position where
  inner : ∀ outerFirst outerLast,
    Encloses tokens outerFirst outerLast position →
      outerFirst ≤ first ∧ last ≤ outerLast

/-- The same bracket pair is the innermost one around both positions, or no
pair is around either. -/
def SameGroup (tokens : List Token) (position other : Nat) : Prop :=
  ∀ first last,
    Innermost tokens first last position ↔
      Innermost tokens first last other

/-- The position holds no bracket. -/
def Unbracketed (tokens : List Token) (position : Nat) : Prop :=
  tokens[position]? ≠ some .openBracket ∧
    tokens[position]? ≠ some .closeBracket

/-! ## Heights -/

/-- The number of opening brackets before a position, less the number of
closing ones. -/
def height (tokens : List Token) (position : Nat) : Int :=
  ((tokens.take position).count .openBracket : Int) -
    (tokens.take position).count .closeBracket

variable {tokens : List Token}

@[simp]
theorem height_zero : height tokens 0 = 0 := by
  simp [height]

theorem height_succ_of_openBracket {position : Nat}
    (found : tokens[position]? = some .openBracket) :
    height tokens (position + 1) = height tokens position + 1 := by
  simp only [height, List.take_add_one, found, Option.toList_some,
    List.count_append]
  simp
  omega

theorem height_succ_of_closeBracket {position : Nat}
    (found : tokens[position]? = some .closeBracket) :
    height tokens (position + 1) = height tokens position - 1 := by
  simp only [height, List.take_add_one, found, Option.toList_some,
    List.count_append]
  simp
  omega

theorem height_succ_of_unbracketed {position : Nat}
    (unbracketed : Unbracketed tokens position) :
    height tokens (position + 1) = height tokens position := by
  cases found : tokens[position]? with
  | none => simp [height, List.take_add_one, found]
  | some token =>
      have notOpen : token ≠ .openBracket := by
        rintro rfl
        exact unbracketed.1 found
      have notClose : token ≠ .closeBracket := by
        rintro rfl
        exact unbracketed.2 found
      simp [height, List.take_add_one, found, List.count_append, notOpen,
        notClose]

/-- A position holds an opening bracket, a closing bracket, or none. -/
theorem bracket_cases (tokens : List Token) (position : Nat) :
    tokens[position]? = some .openBracket ∨
      tokens[position]? = some .closeBracket ∨
        Unbracketed tokens position := by
  by_cases opens : tokens[position]? = some .openBracket
  · exact Or.inl opens
  · by_cases closes : tokens[position]? = some .closeBracket
    · exact Or.inr (Or.inl closes)
    · exact Or.inr (Or.inr ⟨opens, closes⟩)

theorem Nested.height_nonneg (nested : Nested tokens) (position : Nat) :
    0 ≤ height tokens position := by
  have bound := nested.prefixes position
  rw [height]
  omega

theorem Nested.height_of_length_le (nested : Nested tokens)
    {position : Nat} (past : tokens.length ≤ position) :
    height tokens position = 0 := by
  rw [height, List.take_of_length_le past, nested.total]
  omega

/-- From the first position to the second the height comes back, and does not
fall below its beginning on the way. -/
structure SameLevel (tokens : List Token) (first last : Nat) : Prop where
  returns : height tokens last = height tokens (first + 1)
  above : ∀ position, first < position → position ≤ last →
    height tokens (first + 1) ≤ height tokens position

theorem count_between (tokens : List Token) (token : Token) {first last : Nat}
    (order : first < last) :
    ((between tokens first last).count token : Int) =
      ((tokens.take last).count token : Int) -
        (tokens.take (first + 1)).count token := by
  have parts := List.take_append_drop (first + 1) (tokens.take last)
  have inner : (tokens.take last).take (first + 1) =
      tokens.take (first + 1) := by
    rw [List.take_take, Nat.min_eq_left order]
  have sum := congrArg (List.count token) parts
  rw [List.count_append, inner] at sum
  rw [between]
  omega

theorem take_between (first last count : Nat) :
    (between tokens first last).take count =
      between tokens first (min (first + 1 + count) last) := by
  rw [between, between, List.take_drop, List.take_take]

/-- The tokens between two positions are nested exactly when the positions
are level. -/
theorem nested_between_iff {first last : Nat} (order : first < last) :
    Nested (between tokens first last) ↔ SameLevel tokens first last := by
  have counts := fun token (stop : Nat) (bound : first < stop) =>
    count_between tokens token bound
  constructor
  · intro nested
    have total := nested.total
    refine ⟨?_, ?_⟩
    · have opens := counts .openBracket last order
      have closes := counts .closeBracket last order
      rw [height, height]
      omega
    · intro position after before
      have bound := nested.prefixes (position - (first + 1))
      have stop : min (first + 1 + (position - (first + 1))) last =
          position := by omega
      rw [take_between, stop] at bound
      have opens := counts .openBracket position after
      have closes := counts .closeBracket position after
      rw [height, height]
      omega
  · intro level
    refine ⟨?_, ?_⟩
    · intro count
      rcases Nat.eq_zero_or_pos count with rfl | positive
      · simp
      · have after : first < min (first + 1 + count) last := by omega
        have bound := level.above _ after (Nat.min_le_right _ _)
        have opens := counts .openBracket _ after
        have closes := counts .closeBracket _ after
        rw [height, height] at bound
        rw [take_between]
        omega
    · have returns := level.returns
      have opens := counts .openBracket last order
      have closes := counts .closeBracket last order
      rw [height, height] at returns
      omega

/-! ## Pairs around a position -/

theorem BracketPair.level {first last : Nat}
    (pair : BracketPair tokens first last) : SameLevel tokens first last :=
  (nested_between_iff pair.order).mp pair.nested

theorem BracketPair.height_succ_first {first last : Nat}
    (pair : BracketPair tokens first last) :
    height tokens (first + 1) = height tokens first + 1 :=
  height_succ_of_openBracket pair.opens

theorem BracketPair.height_succ_last {first last : Nat}
    (pair : BracketPair tokens first last) :
    height tokens (last + 1) = height tokens first := by
  rw [height_succ_of_closeBracket pair.closes, pair.level.returns,
    pair.height_succ_first]
  omega

/-- Inside a pair the height is at least that behind its opening bracket. -/
theorem Encloses.height_le {first last position : Nat}
    (encloses : Encloses tokens first last position) :
    height tokens (first + 1) ≤ height tokens position :=
  encloses.toBracketPair.level.above position encloses.after
    (Nat.le_of_lt encloses.before)

/-- A pair that a position is level with is the innermost one around it. -/
theorem Encloses.innermost {first last position : Nat}
    (encloses : Encloses tokens first last position)
    (same : height tokens (first + 1) = height tokens position) :
    Innermost tokens first last position := by
  refine ⟨encloses, ?_⟩
  intro outerFirst outerLast outer
  have level := encloses.toBracketPair.level
  have bound := outer.height_le
  have firstStep := outer.toBracketPair.height_succ_first
  have lastStep := outer.toBracketPair.height_succ_last
  constructor
  -- A bracket opened further inside would leave a lower height before it.
  · by_contra later
    have low := level.above outerFirst (by omega)
      (by have := outer.after; have := encloses.before; omega)
    omega
  -- A bracket closed further inside would leave a lower height behind it.
  · by_contra earlier
    have low := level.above (outerLast + 1)
      (by have := outer.before; have := encloses.after; omega) (by omega)
    omega

/-- Before a positive height a bracket was opened that is still open. -/
theorem exists_openBracket_before {position : Nat}
    (positive : 0 < height tokens position) :
    ∃ first,
      first < position ∧ tokens[first]? = some .openBracket ∧
        height tokens (first + 1) = height tokens position ∧
          ∀ place, first < place → place ≤ position →
            height tokens position ≤ height tokens place := by
  classical
  let Low := fun place => height tokens place < height tokens position
  let first := Nat.findGreatest Low position
  have start : Low 0 := by simpa [Low] using positive
  have low : Low first :=
    Nat.findGreatest_spec (Nat.zero_le position) start
  have notHere : first ≠ position := by
    intro same
    simp only [same, Low, Int.lt_irrefl] at low
  have before : first < position :=
    Nat.lt_of_le_of_ne (Nat.findGreatest_le position) notHere
  have high : ∀ place, first < place → place ≤ position →
      height tokens position ≤ height tokens place := by
    intro place after bound
    exact Int.not_lt.mp (Nat.findGreatest_is_greatest after bound)
  have rise := high (first + 1) (Nat.lt_succ_self first) before
  have below : height tokens first < height tokens position := low
  rcases bracket_cases tokens first with opens | closes | neither
  · have step := height_succ_of_openBracket opens
    exact ⟨first, before, opens, by omega, high⟩
  · have step := height_succ_of_closeBracket closes
    omega
  · have step := height_succ_of_unbracketed neither
    omega

/-- After a positive height a bracket is closed that was open there. -/
theorem Nested.exists_closeBracket_after (nested : Nested tokens)
    {position : Nat} (positive : 0 < height tokens position) :
    ∃ last,
      position ≤ last ∧ tokens[last]? = some .closeBracket ∧
        height tokens last = height tokens position ∧
          ∀ place, position ≤ place → place ≤ last →
            height tokens position ≤ height tokens place := by
  classical
  have falls : ∃ last, position ≤ last ∧
      height tokens (last + 1) < height tokens position := by
    refine ⟨max position tokens.length, Nat.le_max_left _ _, ?_⟩
    rw [nested.height_of_length_le (by omega)]
    exact positive
  let last := Nat.find falls
  have after : position ≤ last := (Nat.find_spec falls).1
  have fall : height tokens (last + 1) < height tokens position :=
    (Nat.find_spec falls).2
  have high : ∀ place, position ≤ place → place ≤ last →
      height tokens position ≤ height tokens place := by
    intro place bound before
    rcases Nat.eq_or_lt_of_le bound with rfl | beyond
    · exact Int.le_refl _
    · have notYet := Nat.find_min falls
        (m := place - 1) (by omega)
      have previous : place - 1 + 1 = place := by omega
      rw [previous] at notYet
      by_contra low
      exact notYet ⟨by omega, by omega⟩
  have top := high last after (Nat.le_refl last)
  rcases bracket_cases tokens last with opens | closes | neither
  · have step := height_succ_of_openBracket opens
    omega
  · have step := height_succ_of_closeBracket closes
    exact ⟨last, after, closes, by omega, high⟩
  · have step := height_succ_of_unbracketed neither
    omega

/-- Around a position of positive height there is an innermost pair. -/
theorem Nested.exists_innermost (nested : Nested tokens) {position : Nat}
    (unbracketed : Unbracketed tokens position)
    (positive : 0 < height tokens position) :
    ∃ first last,
      Innermost tokens first last position ∧
        height tokens (first + 1) = height tokens position := by
  obtain ⟨first, before, opens, rise, highBefore⟩ :=
    exists_openBracket_before positive
  obtain ⟨last, after, closes, fall, highAfter⟩ :=
    nested.exists_closeBracket_after positive
  have notLast : position ≠ last := by
    rintro rfl
    exact unbracketed.2 closes
  have order : first < last := by omega
  have level : SameLevel tokens first last := by
    refine ⟨by omega, ?_⟩
    intro place beyond bound
    rw [rise]
    rcases Nat.le_total place position with left | right
    · exact highBefore place beyond left
    · exact highAfter place right bound
  have encloses : Encloses tokens first last position :=
    ⟨⟨opens, closes, order, (nested_between_iff order).mpr level⟩, before,
      by omega⟩
  exact ⟨first, last, encloses.innermost rise, rise⟩

theorem Innermost.unique {first last otherFirst otherLast position : Nat}
    (innermost : Innermost tokens first last position)
    (other : Innermost tokens otherFirst otherLast position) :
    first = otherFirst ∧ last = otherLast := by
  have inner := innermost.inner _ _ other.toEncloses
  have outer := other.inner _ _ innermost.toEncloses
  omega

theorem Nested.height_eq_of_innermost (nested : Nested tokens)
    {first last position : Nat}
    (unbracketed : Unbracketed tokens position)
    (innermost : Innermost tokens first last position) :
    height tokens (first + 1) = height tokens position := by
  have bound := innermost.toEncloses.height_le
  have step := innermost.toBracketPair.height_succ_first
  have nonneg := nested.height_nonneg first
  obtain ⟨found, foundLast, other, same⟩ :=
    nested.exists_innermost unbracketed (by omega)
  obtain ⟨rfl, rfl⟩ := innermost.unique other
  exact same

/-- Outside all pairs the height is zero. -/
theorem Nested.height_eq_zero (nested : Nested tokens) {position : Nat}
    (unbracketed : Unbracketed tokens position)
    (outside : ∀ first last, ¬ Innermost tokens first last position) :
    height tokens position = 0 := by
  have nonneg := nested.height_nonneg position
  by_contra nonzero
  obtain ⟨first, last, innermost, -⟩ :=
    nested.exists_innermost unbracketed (by omega)
  exact outside first last innermost

section

variable {position other : Nat}

/-- Two positions of a group have the same height, and none between them is
lower. -/
theorem Nested.sameLevel_of_sameGroup (nested : Nested tokens)
    (unbracketed : Unbracketed tokens position)
    (otherUnbracketed : Unbracketed tokens other)
    (same : SameGroup tokens position other) :
    SameLevel tokens position other := by
  have step := height_succ_of_unbracketed unbracketed
  by_cases inside : ∃ first last, Innermost tokens first last position
  · obtain ⟨first, last, innermost⟩ := inside
    have otherInnermost := (same first last).mp innermost
    have returns := nested.height_eq_of_innermost unbracketed innermost
    have otherReturns :=
      nested.height_eq_of_innermost otherUnbracketed otherInnermost
    refine ⟨by omega, ?_⟩
    intro place after before
    have bound := innermost.toBracketPair.level.above place
      (by have := innermost.after; omega)
      (by have := otherInnermost.before; omega)
    omega
  · have outside : ∀ first last, ¬ Innermost tokens first last position :=
      fun first last found => inside ⟨first, last, found⟩
    have otherOutside : ∀ first last, ¬ Innermost tokens first last other :=
      fun first last found => outside first last ((same first last).mpr found)
    have ground := nested.height_eq_zero unbracketed outside
    have otherGround := nested.height_eq_zero otherUnbracketed otherOutside
    refine ⟨by omega, ?_⟩
    intro place after before
    have nonneg := nested.height_nonneg place
    omega

/-- A pair around the earlier of two level positions goes on to the later. -/
theorem SameLevel.innermost_later (level : SameLevel tokens position other)
    (order : position < other) (nested : Nested tokens)
    (unbracketed : Unbracketed tokens position)
    (otherUnbracketed : Unbracketed tokens other) {first last : Nat}
    (innermost : Innermost tokens first last position) :
    Innermost tokens first last other := by
  have step := height_succ_of_unbracketed unbracketed
  have returns := level.returns
  have same := nested.height_eq_of_innermost unbracketed innermost
  have rise := innermost.toBracketPair.height_succ_first
  have fall := innermost.toBracketPair.height_succ_last
  have notLast : last ≠ other := by
    rintro rfl
    exact otherUnbracketed.2 innermost.closes
  have before : other < last := by
    by_contra beyond
    have bound := level.above (last + 1)
      (by have := innermost.before; omega) (by omega)
    omega
  have encloses : Encloses tokens first last other :=
    ⟨innermost.toBracketPair, by have := innermost.after; omega, before⟩
  exact encloses.innermost (by omega)

/-- A pair around the later of two level positions began before the
earlier. -/
theorem SameLevel.innermost_earlier (level : SameLevel tokens position other)
    (order : position < other) (nested : Nested tokens)
    (unbracketed : Unbracketed tokens position)
    (otherUnbracketed : Unbracketed tokens other) {first last : Nat}
    (innermost : Innermost tokens first last other) :
    Innermost tokens first last position := by
  have step := height_succ_of_unbracketed unbracketed
  have returns := level.returns
  have same := nested.height_eq_of_innermost otherUnbracketed innermost
  have rise := innermost.toBracketPair.height_succ_first
  have notFirst : first ≠ position := by
    rintro rfl
    exact unbracketed.1 innermost.opens
  have after : first < position := by
    by_contra beyond
    have bound := level.above first (by omega)
      (by have := innermost.after; omega)
    omega
  have encloses : Encloses tokens first last position :=
    ⟨innermost.toBracketPair, after, by have := innermost.before; omega⟩
  exact encloses.innermost (by omega)

/-- Two positions without brackets are in the same group exactly when they
are level. -/
theorem Nested.sameGroup_iff (nested : Nested tokens)
    (order : position < other)
    (unbracketed : Unbracketed tokens position)
    (otherUnbracketed : Unbracketed tokens other) :
    SameGroup tokens position other ↔ SameLevel tokens position other := by
  constructor
  · exact nested.sameLevel_of_sameGroup unbracketed otherUnbracketed
  · intro level first last
    constructor
    · exact level.innermost_later order nested unbracketed otherUnbracketed
    · exact level.innermost_earlier order nested unbracketed
        otherUnbracketed

end

end Calculator

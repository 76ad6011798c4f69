import Calculator.Decimal.Display
import Calculator.Error

/-!
# The history of calculations

A history lists calculations in the order in which they were made, each with
its result.  Only the latest one can be taken back.  A history may be
limited; when it holds as many entries as its limit says, it refuses further
ones.
-/

namespace Calculator

/-- A calculation that was made. -/
structure Entry where
  /-- The text of the expression. -/
  expression : String
  /-- Its value. -/
  result : Float
  deriving DecidableEq

/-- An entry in print. -/
def Entry.text (entry : Entry) : String :=
  s!"Equation: {entry.expression}, Result: {Decimal.display entry.result}"

/-- The calculations that were made and not taken back. -/
structure History where
  /-- How many entries the history may hold, if it is limited. -/
  limit : Option Nat
  /-- The entries, the latest one first. -/
  latestFirst : List Entry
  deriving DecidableEq

namespace History

/-- The history without entries. -/
def empty (limit : Option Nat) : History := ⟨limit, []⟩

/-- The entries, the oldest one first. -/
def toList (history : History) : List Entry := history.latestFirst.reverse

/-- The number of entries. -/
def size (history : History) : Nat := history.latestFirst.length

/-- Whether there are no entries. -/
def isEmpty (history : History) : Bool := history.latestFirst.isEmpty

/-- The latest entry. -/
def last? (history : History) : Option Entry := history.latestFirst.head?

/-- The limit, if the history has reached it. -/
def full? (history : History) : Option Nat :=
  history.limit.filter fun limit => limit ≤ history.size

/-- Adds an entry, unless the history is full. -/
def append (history : History) (entry : Entry) :
    Except CalculationError History :=
  match history.full? with
  | some limit => .error (.historyFull limit)
  | none =>
      .ok { history with latestFirst := entry :: history.latestFirst }

/-- Takes the latest entry back, if there is one. -/
def removeLast (history : History) : History :=
  { history with latestFirst := history.latestFirst.tail }

/-- Takes all entries back. -/
def clear (history : History) : History :=
  { history with latestFirst := [] }

@[simp]
theorem limit_empty (limit : Option Nat) : (empty limit).limit = limit :=
  rfl

@[simp]
theorem toList_empty (limit : Option Nat) : (empty limit).toList = [] :=
  rfl

@[simp]
theorem length_toList (history : History) :
    history.toList.length = history.size := by
  simp [toList, size]

theorem last?_eq_getLast? (history : History) :
    history.last? = history.toList.getLast? := by
  simp [last?, toList]

theorem toList_append {history longer : History} {entry : Entry}
    (appended : history.append entry = .ok longer) :
    longer.toList = history.toList ++ [entry] := by
  unfold append at appended
  split at appended <;> cases appended
  simp [toList]

theorem limit_append {history longer : History} {entry : Entry}
    (appended : history.append entry = .ok longer) :
    longer.limit = history.limit := by
  unfold append at appended
  split at appended <;> cases appended
  rfl

@[simp]
theorem toList_removeLast (history : History) :
    history.removeLast.toList = history.toList.dropLast := by
  simp [removeLast, toList]

@[simp]
theorem limit_removeLast (history : History) :
    history.removeLast.limit = history.limit :=
  rfl

@[simp]
theorem toList_clear (history : History) : history.clear.toList = [] :=
  rfl

@[simp]
theorem limit_clear (history : History) :
    history.clear.limit = history.limit :=
  rfl

end History

end Calculator

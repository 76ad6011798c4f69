/-!
# The operations of a calculator

Constants, functions and operators are operations with no, one or two
operands.  Each has a name, a place relative to its operands, and a priority;
the larger the priority, the tighter it binds.  An operation is found by its
name, and no two have the same one.
-/

namespace Calculator

/-- A named number. -/
inductive Constant where
  | e
  | pi
  | phi
  deriving DecidableEq, Repr

/-- An operation on one number. -/
inductive UnaryOperation where
  | negate
  | factorial
  | sin
  | cos
  | tan
  | sec
  | csc
  | cosec
  | cot
  | asin
  | acos
  | atan
  | sinh
  | cosh
  | tanh
  | asinh
  | acosh
  | atanh
  | sqrt
  | cbrt
  | exp
  | ln
  | log2
  | log
  | abs
  | ceil
  | floor
  | round
  deriving DecidableEq, Repr

/-- An operation on two numbers. -/
inductive BinaryOperation where
  | add
  | subtract
  | multiply
  | divide
  | remainder
  | power
  /-- The logarithm of the second operand to the base of the first. -/
  | logarithm
  deriving DecidableEq, Repr

/-- Anything that an expression can name. -/
inductive Operation where
  | constant (value : Constant)
  | unary (operation : UnaryOperation)
  | binary (operation : BinaryOperation)
  deriving DecidableEq, Repr

/-- Where an operation is written. -/
inductive Fixity where
  /-- By itself. -/
  | standsAlone
  /-- Before its operands. -/
  | beforeOperands
  /-- Between its operands. -/
  | betweenOperands
  /-- After its operand. -/
  | afterOperand
  deriving DecidableEq, Repr

/-- The name of a place. -/
def Fixity.name : Fixity → String
  | .standsAlone => "Constant"
  | .beforeOperands => "Prefix"
  | .betweenOperands => "Infix"
  | .afterOperand => "Postfix"

/-- The name of a constant. -/
def Constant.name : Constant → String
  | .e => "e"
  | .pi => "pi"
  | .phi => "phi"

/-- The name of an operation on one number. -/
def UnaryOperation.name : UnaryOperation → String
  | .negate => "neg"
  | .factorial => "!"
  | .sin => "sin"
  | .cos => "cos"
  | .tan => "tan"
  | .sec => "sec"
  | .csc => "csc"
  | .cosec => "cosec"
  | .cot => "cot"
  | .asin => "asin"
  | .acos => "acos"
  | .atan => "atan"
  | .sinh => "sinh"
  | .cosh => "cosh"
  | .tanh => "tanh"
  | .asinh => "asinh"
  | .acosh => "acosh"
  | .atanh => "atanh"
  | .sqrt => "sqrt"
  | .cbrt => "cbrt"
  | .exp => "exp"
  | .ln => "ln"
  | .log2 => "log2"
  | .log => "log"
  | .abs => "abs"
  | .ceil => "ceil"
  | .floor => "floor"
  | .round => "round"

/-- The name of an operation on two numbers. -/
def BinaryOperation.name : BinaryOperation → String
  | .add => "+"
  | .subtract => "-"
  | .multiply => "*"
  | .divide => "/"
  | .remainder => "%"
  | .power => "^"
  | .logarithm => "log_"

namespace Operation

/-- The name by which an operation is written and found. -/
def name : Operation → String
  | .constant value => value.name
  | .unary operation => operation.name
  | .binary operation => operation.name

/-- The number of operands. -/
def arity : Operation → Nat
  | .constant _ => 0
  | .unary _ => 1
  | .binary _ => 2

/-- Where the operation is written. -/
def fixity : Operation → Fixity
  | .constant _ => .standsAlone
  | .unary .factorial => .afterOperand
  | .unary _ => .beforeOperands
  | .binary .logarithm => .beforeOperands
  | .binary _ => .betweenOperands

/-- How tightly the operation binds: sums and differences least, then
products, quotients and remainders, then powers and functions, and the
negation and the factorial most. -/
def priority : Operation → Nat
  | .constant _ => 3
  | .unary .negate => 3
  | .unary .factorial => 3
  | .unary _ => 2
  | .binary .add => 0
  | .binary .subtract => 0
  | .binary .multiply => 1
  | .binary .divide => 1
  | .binary .remainder => 1
  | .binary .power => 2
  | .binary .logarithm => 2

theorem priority_le (operation : Operation) : operation.priority ≤ 3 := by
  rcases operation with value | operation | operation
  · simp [priority]
  · cases operation <;> decide
  · cases operation <;> decide

/-- The name and the number of operands. -/
def description (operation : Operation) : String :=
  s!"Func({operation.name}/{operation.arity})"

/-- The operators, the negation among them. -/
def operators : List Operation :=
  [.binary .add, .binary .subtract, .binary .multiply, .binary .divide,
    .binary .remainder, .binary .power, .unary .factorial,
    .unary .negate]

/-- The functions that are written by name, in the order in which they are
listed to the user. -/
def functions : List Operation :=
  [.unary .sin, .unary .cos, .unary .tan, .unary .sec, .unary .csc,
    .unary .cosec, .unary .cot, .unary .asin, .unary .acos, .unary .atan,
    .unary .sinh, .unary .cosh, .unary .tanh, .unary .asinh,
    .unary .acosh, .unary .atanh, .unary .sqrt, .unary .cbrt, .unary .exp,
    .unary .ln, .unary .log2, .unary .log, .unary .abs, .unary .ceil,
    .unary .floor, .unary .round, .binary .logarithm]

/-- The constants. -/
def constants : List Operation :=
  [.constant .e, .constant .pi, .constant .phi]

/-- All operations. -/
def all : List Operation := operators ++ functions ++ constants

theorem mem_all (operation : Operation) : operation ∈ all := by
  rcases operation with value | operation | operation
  · cases value <;> decide
  · cases operation <;> decide
  · cases operation <;> decide

/-- The names of the functions, in the order of the list. -/
def functionNames : List String := functions.map name

/-- The operation of the given name. -/
def lookup (name : String) : Option Operation :=
  all.find? fun operation => operation.name == name

/-- No name is empty. -/
theorem name_toList_ne_nil (operation : Operation) :
    operation.name.toList ≠ [] := by
  rcases operation with value | operation | operation
  · cases value <;> decide
  · cases operation <;> decide
  · cases operation <;> decide

/-- What is found by a name has that name. -/
theorem name_of_lookup {name : String} {operation : Operation}
    (found : lookup name = some operation) : operation.name = name := by
  simpa using List.find?_some found

/-- Every operation is found by its name; so no two have the same one. -/
@[simp]
theorem lookup_name (operation : Operation) :
    lookup operation.name = some operation := by
  rcases operation with value | operation | operation
  · cases value <;> decide +kernel
  · cases operation <;> decide +kernel
  · cases operation <;> decide +kernel

theorem lookup_eq_some_iff {name : String} {operation : Operation} :
    lookup name = some operation ↔ operation.name = name :=
  ⟨name_of_lookup, fun named => named ▸ lookup_name operation⟩

theorem name_injective {first second : Operation}
    (same : first.name = second.name) : first = second := by
  have found := lookup_name first
  rw [same, lookup_name] at found
  exact (Option.some.inj found).symm

end Operation

end Calculator

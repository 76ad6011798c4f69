import Calculator.Expression.Value

/-!
# Expression trees

Tokens in reverse Polish order list a tree: a number or a constant is a leaf,
and an operation is a node over as many trees as it has operands.  This module
defines the trees, the tokens that list a tree with every operation after its
operands, and the value of a tree.

A row of trees, a *forest*, is listed tree by tree.  The main results say that
running over the tokens of a forest puts the values of its trees on the stack,
and that no two forests are listed by the same tokens.
-/

namespace Calculator

/-- An expression as a tree.  Every operation keeps the role in which it is
used, which its value does not depend on. -/
inductive ExpressionTree where
  | number (value : Float)
  | constant (role : Role) (named : Constant)
  | unary (role : Role) (operation : UnaryOperation)
      (operand : ExpressionTree)
  | binary (role : Role) (operation : BinaryOperation)
      (first second : ExpressionTree)

namespace ExpressionTree

/-- The tokens of a tree, every operation after its operands. -/
def postorder : ExpressionTree → List Token
  | number value => [.number value]
  | constant role named => [.symbol ⟨role, .constant named⟩]
  | unary role operation operand =>
      operand.postorder ++ [.symbol ⟨role, .unary operation⟩]
  | binary role operation first second =>
      first.postorder ++
        (second.postorder ++ [.symbol ⟨role, .binary operation⟩])

/-- The value of a tree.  Operands are evaluated from left to right, and the
result of every operation is freed from noise. -/
def value (library : Elementary) :
    ExpressionTree → Except CalculationError Float
  | number value => .ok value
  | constant _ named => .ok named.value
  | unary _ operation operand => do
      let argument ← operand.value library
      (operation.apply library argument).map withoutNoise
  | binary _ operation first second => do
      let left ← first.value library
      let right ← second.value library
      (operation.apply library left right).map withoutNoise

end ExpressionTree

/-- A row of trees. -/
abbrev Forest := List ExpressionTree

namespace Forest

/-- The tokens of a forest, tree by tree. -/
def postorder (forest : Forest) : List Token :=
  forest.flatMap ExpressionTree.postorder

/-- The values of the trees of a forest, from left to right. -/
def values (library : Elementary) (forest : Forest) :
    Except CalculationError (List Float) :=
  forest.mapM (ExpressionTree.value library)

@[simp]
theorem postorder_nil : postorder [] = [] := rfl

@[simp]
theorem postorder_cons (tree : ExpressionTree) (forest : Forest) :
    postorder (tree :: forest) = tree.postorder ++ postorder forest :=
  rfl

@[simp]
theorem postorder_append (first second : Forest) :
    postorder (first ++ second) = postorder first ++ postorder second := by
  simp [postorder]

@[simp]
theorem values_nil (library : Elementary) : values library [] = .ok [] :=
  rfl

theorem values_append (library : Elementary) (first second : Forest) :
    values library (first ++ second) =
      values library first >>= fun left =>
        (values library second).map (left ++ ·) := by
  simp only [values, List.mapM_append, bind_pure_comp]
  rfl

theorem values_singleton (library : Elementary) (tree : ExpressionTree) :
    values library [tree] = (tree.value library).map ([·]) := by
  cases found : tree.value library <;>
    simp [values, found, Except.map, bind, Except.bind, pure, Except.pure]

theorem values_append_singleton {library : Elementary} {before : Forest}
    {tree : ExpressionTree} {others : List Float} {last : Float}
    (beforeValues : values library before = .ok others)
    (treeValue : tree.value library = .ok last) :
    values library (before ++ [tree]) = .ok (others ++ [last]) := by
  rw [values_append, beforeValues, values_singleton, treeValue]
  rfl

/-- A forest with a last value is a forest with a last tree. -/
theorem values_eq_ok_append_singleton {library : Elementary}
    {forest : Forest} {others : List Float} {last : Float}
    (evaluated : values library forest = .ok (others ++ [last])) :
    ∃ before tree,
      forest = before ++ [tree] ∧
        values library before = .ok others ∧
          tree.value library = .ok last := by
  rcases List.eq_nil_or_concat forest with rfl | ⟨before, tree, rfl⟩
  · rw [values_nil, Except.ok.injEq] at evaluated
    simp at evaluated
  · rw [List.concat_eq_append, values_append, values_singleton]
      at evaluated
    cases valuesFound : values library before with
    | error failure =>
        rw [valuesFound] at evaluated
        cases evaluated
    | ok left =>
        cases valueFound : tree.value library with
        | error failure =>
            rw [valuesFound, valueFound] at evaluated
            cases evaluated
        | ok right =>
            rw [valuesFound, valueFound] at evaluated
            have same : left ++ [right] = others ++ [last] :=
              Except.ok.inj evaluated
            obtain ⟨rfl, rfl⟩ := List.append_singleton_inj.mp same
            exact ⟨before, tree, List.concat_eq_append, valuesFound,
              valueFound⟩

end Forest

/-! ## The run over the tokens of a tree -/

/-- The stack of values after the given tokens, the latest value first. -/
def runValues (library : Elementary) (values : List Float)
    (tokens : List Token) : Except CalculationError (List Float) :=
  tokens.foldlM (pushValue library) values

@[simp]
theorem runValues_nil (library : Elementary) (values : List Float) :
    runValues library values [] = .ok values :=
  rfl

theorem runValues_cons (library : Elementary) (values : List Float)
    (token : Token) (tokens : List Token) :
    runValues library values (token :: tokens) =
      pushValue library values token >>= fun next =>
        runValues library next tokens := by
  simp [runValues]

@[simp]
theorem runValues_singleton (library : Elementary) (values : List Float)
    (token : Token) :
    runValues library values [token] = pushValue library values token := by
  cases pushed : pushValue library values token <;>
    simp [runValues, pushed, bind, Except.bind, pure, Except.pure]

theorem runValues_append (library : Elementary) (values : List Float)
    (before after : List Token) :
    runValues library values (before ++ after) =
      runValues library values before >>= fun between =>
        runValues library between after := by
  simp [runValues]

theorem evaluate_eq_runValues (library : Elementary)
    (tokens : List Token) :
    evaluate library tokens =
      runValues library [] tokens >>= onlyValue :=
  rfl

/-- The tokens of a tree put its value on the stack, whatever the stack
holds. -/
theorem runValues_postorder (library : Elementary)
    (tree : ExpressionTree) (values : List Float) :
    runValues library values tree.postorder =
      (tree.value library).map (· :: values) := by
  induction tree generalizing values with
  | number value => rfl
  | constant role named => rfl
  | unary role operation operand ih =>
      rw [ExpressionTree.postorder, runValues_append, ih,
        ExpressionTree.value]
      cases operand.value library with
      | error failure => rfl
      | ok argument =>
          change runValues library (argument :: values) _ = _
          rw [runValues_singleton, pushValue_symbol, applyOnStack]
          cases applied : operation.apply library argument <;>
            simp [applied, Except.map, bind, Except.bind]
  | binary role operation first second firstIH secondIH =>
      rw [ExpressionTree.postorder, runValues_append, firstIH,
        ExpressionTree.value]
      cases first.value library with
      | error failure => rfl
      | ok left =>
          change runValues library (left :: values) _ = _
          rw [runValues_append, secondIH]
          cases second.value library with
          | error failure => rfl
          | ok right =>
              change runValues library (right :: left :: values) _ = _
              rw [runValues_singleton, pushValue_symbol, applyOnStack]
              cases applied : operation.apply library left right <;>
                simp [applied, Except.map, bind, Except.bind]

/-- The tokens of a forest put its values on the stack, the last one on
top. -/
theorem runValues_forest (library : Elementary) (forest : Forest)
    (stack : List Float) :
    runValues library stack forest.postorder =
      (forest.values library).map (·.reverse ++ stack) := by
  induction forest generalizing stack with
  | nil => rfl
  | cons tree forest ih =>
      rw [Forest.postorder_cons, runValues_append, runValues_postorder,
        ← List.singleton_append, Forest.values_append,
        Forest.values_singleton]
      cases tree.value library with
      | error failure => rfl
      | ok top =>
          change runValues library (top :: stack) _ = _
          rw [ih]
          cases Forest.values library forest with
          | error failure => rfl
          | ok others =>
              simp [Except.map, bind, Except.bind]

/-! ## A forest is determined by its tokens -/

namespace ExpressionTree

/-- Takes in the next token of a forest, with the trees so far on a stack.
Where operands are missing the trees are left as they are. -/
def graft : Forest → Token → Forest
  | stack, .number value => number value :: stack
  | stack, .symbol ⟨role, .constant named⟩ => constant role named :: stack
  | operand :: stack, .symbol ⟨role, .unary operation⟩ =>
      unary role operation operand :: stack
  | second :: first :: stack, .symbol ⟨role, .binary operation⟩ =>
      binary role operation first second :: stack
  | stack, _ => stack

theorem foldl_graft_postorder (tree : ExpressionTree) (stack : Forest) :
    tree.postorder.foldl graft stack = tree :: stack := by
  induction tree generalizing stack with
  | number value => rfl
  | constant role named => rfl
  | unary role operation operand ih =>
      simp [postorder, ih, graft]
  | binary role operation first second firstIH secondIH =>
      simp [postorder, firstIH, secondIH, graft]

end ExpressionTree

theorem Forest.foldl_graft_postorder (forest : Forest)
    (stack : Forest) :
    forest.postorder.foldl ExpressionTree.graft stack =
      forest.reverse ++ stack := by
  induction forest generalizing stack with
  | nil => rfl
  | cons tree forest ih =>
      rw [Forest.postorder_cons, List.foldl_append,
        ExpressionTree.foldl_graft_postorder, ih]
      simp

/-- No two forests are listed by the same tokens. -/
theorem Forest.postorder_injective :
    Function.Injective Forest.postorder := by
  intro first second same
  have firstGrown := Forest.foldl_graft_postorder first []
  have secondGrown := Forest.foldl_graft_postorder second []
  rw [same, secondGrown] at firstGrown
  simpa using firstGrown.symm

end Calculator

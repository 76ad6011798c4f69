import Calculator.Proofs.Conversion.Order
import Calculator.Proofs.Evaluation.Acceptance

/-!
# Counting operands

A number or a constant adds one tree to a forest, and an operation on two
numbers makes one tree of two.  So the number of trees that tokens list is the
number of operands among them, less the number of such operations, in whatever
order the tokens stand.
-/

namespace Calculator

namespace Token

/-- Whether the token is a number or a constant. -/
def isOperand : Token → Bool
  | .number _ => true
  | .symbol used => used.operation.arity == 0
  | .openBracket | .closeBracket => false

/-- Whether the token is an operation on two numbers. -/
def takesTwo : Token → Bool
  | .symbol used => used.operation.arity == 2
  | .number _ | .openBracket | .closeBracket => false

theorem isBracket_of_isOperand {token : Token}
    (operand : token.isOperand = true) : token.isBracket = false := by
  cases token <;> simp_all [isOperand, isBracket]

theorem isBracket_of_takesTwo {token : Token}
    (two : token.takesTwo = true) : token.isBracket = false := by
  cases token <;> simp_all [takesTwo, isBracket]

end Token

theorem ExpressionTree.countP_postorder (tree : ExpressionTree) :
    tree.postorder.countP Token.isOperand =
      tree.postorder.countP Token.takesTwo + 1 := by
  induction tree with
  | number value => rfl
  | constant role named => rfl
  | unary role operation operand ih =>
      simp only [postorder, List.countP_append, ih]
      simp [Token.isOperand, Token.takesTwo, Operation.arity]
  | binary role operation first second ihFirst ihSecond =>
      simp only [postorder, List.countP_append, ihFirst, ihSecond]
      simp [Token.isOperand, Token.takesTwo, Operation.arity]
      omega

theorem Forest.countP_postorder (forest : Forest) :
    forest.postorder.countP Token.isOperand =
      forest.postorder.countP Token.takesTwo + forest.length := by
  induction forest with
  | nil => rfl
  | cons tree forest ih =>
      rw [postorder_cons, List.countP_append, List.countP_append, ih,
        tree.countP_postorder, List.length_cons]
      omega

/-- A conversion keeps the number of tokens of a kind that no bracket is
of. -/
theorem countP_of_toReversePolish_eq_ok {tokens output : List Token}
    (converted : toReversePolish tokens = .ok output) (kind : Token → Bool)
    (noBracket : ∀ token, kind token = true → token.isBracket = false) :
    output.countP kind = tokens.countP kind := by
  rw [(perm_of_toReversePolish_eq_ok converted).countP_eq,
    List.countP_filter]
  refine List.countP_congr fun token _ => ?_
  simp only [Bool.and_eq_true, Bool.not_eq_true', and_iff_left_iff_imp]
  exact noBracket token

/-- Tokens whose conversion lists a forest hold as many operands as
operations on two numbers and trees. -/
theorem countP_isOperand_of_toReversePolish_eq_ok {tokens : List Token}
    {forest : Forest}
    (converted : toReversePolish tokens = .ok forest.postorder) :
    tokens.countP Token.isOperand =
      tokens.countP Token.takesTwo + forest.length := by
  have operands := countP_of_toReversePolish_eq_ok converted
    Token.isOperand fun _ => Token.isBracket_of_isOperand
  have twos := countP_of_toReversePolish_eq_ok converted
    Token.takesTwo fun _ => Token.isBracket_of_takesTwo
  rw [← operands, ← twos, forest.countP_postorder]

end Calculator

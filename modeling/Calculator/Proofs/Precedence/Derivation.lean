import Calculator.Proofs.Evaluation.Tree
import Calculator.Proofs.Lexing.Joining
import Calculator.Proofs.Lexing.Tokens

/-!
# Derivations of expressions

The grammar of expressions has seven levels, from atoms to sums:

    atom    ::= numeral | constant | '(' sum ')'
    signed  ::= atom | '-' atom | signed '!'
    group   ::= '(' sum ')' | group '!'
    factor  ::= signed | function group | 'log_' atom group
    power   ::= factor | power '^' signed
    product ::= power | product ('*' | '/' | '%') power
    sum     ::= product | sum '+' product | sum '-' product

The last rule applies only where the sum before the minus sign does not end
with a factorial.  A derivation is a syntax tree of this grammar.  It has the
lexemes that its rules write, and stands for an expression tree, in which
brackets and levels have done their work.
-/

namespace Calculator

/-- The nonterminals of the grammar. -/
inductive Level where
  | atom
  | signed
  | group
  | factor
  | power
  | product
  | sum
  deriving DecidableEq, Repr

/-- The signs between the operands of a product. -/
inductive ProductSign where
  | star
  | slash
  | percent
  deriving DecidableEq, Repr

/-- The mark that is written for a sign. -/
def ProductSign.mark : ProductSign → Mark
  | star => .star
  | slash => .slash
  | percent => .percent

/-- The operation that a sign stands for. -/
def ProductSign.operation : ProductSign → BinaryOperation
  | star => .multiply
  | slash => .divide
  | percent => .remainder

/-- The derivations of a level.  The flag tells whether the last lexeme is the
mark of a factorial. -/
inductive Derivation : Level → Bool → Type where
  | numeral (written : Numeral) (literal : written.Literal)
      (finite : written.Finite) :
      Derivation .atom false
  | constant (named : Constant) : Derivation .atom false
  | bracketed {marked : Bool} (inner : Derivation .sum marked) :
      Derivation .atom false
  | plain (atom : Derivation .atom false) : Derivation .signed false
  | negated (atom : Derivation .atom false) : Derivation .signed false
  | factorial {marked : Bool} (operand : Derivation .signed marked) :
      Derivation .signed true
  | group {marked : Bool} (inner : Derivation .sum marked) :
      Derivation .group false
  | groupFactorial {marked : Bool} (operand : Derivation .group marked) :
      Derivation .group true
  | factor {marked : Bool} (operand : Derivation .signed marked) :
      Derivation .factor marked
  | application {marked : Bool} (function : UnaryOperation)
      (listed : function.name ∈ Operation.functionNames)
      (argument : Derivation .group marked) :
      Derivation .factor marked
  | logarithm {marked : Bool} (base : Derivation .atom false)
      (argument : Derivation .group marked) :
      Derivation .factor marked
  | power {marked : Bool} (operand : Derivation .factor marked) :
      Derivation .power marked
  | raised {marked otherMarked : Bool} (base : Derivation .power marked)
      (exponent : Derivation .signed otherMarked) :
      Derivation .power otherMarked
  | product {marked : Bool} (operand : Derivation .power marked) :
      Derivation .product marked
  | multiplied {marked otherMarked : Bool} (sign : ProductSign)
      (first : Derivation .product marked)
      (second : Derivation .power otherMarked) :
      Derivation .product otherMarked
  | sum {marked : Bool} (operand : Derivation .product marked) :
      Derivation .sum marked
  | added {marked otherMarked : Bool} (first : Derivation .sum marked)
      (second : Derivation .product otherMarked) :
      Derivation .sum otherMarked
  | subtracted {otherMarked : Bool} (first : Derivation .sum false)
      (second : Derivation .product otherMarked) :
      Derivation .sum otherMarked

namespace Derivation

/-- The lexemes that the rules of a derivation write. -/
def lexemes {level : Level} {marked : Bool} :
    Derivation level marked → List Lexeme
  | numeral written _ _ => [.numeral written]
  | constant named => [.name (.constant named)]
  | bracketed inner => .openBracket :: (inner.lexemes ++ [.closeBracket])
  | plain atom => atom.lexemes
  | negated atom => .mark .minus :: atom.lexemes
  | factorial operand => operand.lexemes ++ [.mark .exclamation]
  | group inner => .openBracket :: (inner.lexemes ++ [.closeBracket])
  | groupFactorial operand => operand.lexemes ++ [.mark .exclamation]
  | factor operand => operand.lexemes
  | application function _ argument =>
      .name (.unary function) :: argument.lexemes
  | logarithm base argument =>
      .name (.binary .logarithm) :: (base.lexemes ++ argument.lexemes)
  | power operand => operand.lexemes
  | raised base exponent =>
      base.lexemes ++ .mark .caret :: exponent.lexemes
  | product operand => operand.lexemes
  | multiplied sign first second =>
      first.lexemes ++ .mark sign.mark :: second.lexemes
  | sum operand => operand.lexemes
  | added first second => first.lexemes ++ .mark .plus :: second.lexemes
  | subtracted first second =>
      first.lexemes ++ .mark .minus :: second.lexemes

/-- The expression that a derivation stands for. -/
def tree {level : Level} {marked : Bool} :
    Derivation level marked → ExpressionTree
  | numeral written _ _ => .number written.toFloat
  | constant named => .constant .constant named
  | bracketed inner => inner.tree
  | plain atom => atom.tree
  | negated atom => .unary .operator .negate atom.tree
  | factorial operand => .unary .operator .factorial operand.tree
  | group inner => inner.tree
  | groupFactorial operand => .unary .operator .factorial operand.tree
  | factor operand => operand.tree
  | application function _ argument =>
      .unary .function function argument.tree
  | logarithm base argument =>
      .binary .function .logarithm base.tree argument.tree
  | power operand => operand.tree
  | raised base exponent =>
      .binary .operator .power base.tree exponent.tree
  | product operand => operand.tree
  | multiplied sign first second =>
      .binary .operator sign.operation first.tree second.tree
  | sum operand => operand.tree
  | added first second => .binary .operator .add first.tree second.tree
  | subtracted first second =>
      .binary .operator .subtract first.tree second.tree

/-- The text consists of the lexemes of the derivation, with any blanks
before, between and after them. -/
def Spells {level : Level} {marked : Bool}
    (derivation : Derivation level marked) (text : String) : Prop :=
  ∃ cut : Cut,
    cut.text = text.toList ∧
      cut.Spaced ∧ cut.lexemes = derivation.lexemes

/-! ## The lexemes of a derivation -/

/-- A group begins with a bracket. -/
theorem exists_lexemes_group_eq_cons {marked : Bool}
    (derivation : Derivation .group marked) :
    ∃ others, derivation.lexemes = .openBracket :: others := by
  -- The induction needs the level as a variable; other levels are refuted.
  generalize same : Level.group = level at derivation
  induction derivation with
  | group inner => exact ⟨_, rfl⟩
  | groupFactorial operand ih =>
      obtain ⟨others, shape⟩ := ih rfl
      exact ⟨others ++ [.mark .exclamation], by rw [lexemes, shape]; rfl⟩
  | _ => cases same

/-- The lexemes of a derivation are joined, and a sign may follow them. -/
theorem joined_lexemes_append {level : Level} {marked : Bool}
    (derivation : Derivation level marked) {rest : List Lexeme}
    (sign : ∀ other ∈ rest.head?, other.isSign = true)
    (joined : Joined rest) :
    Joined (derivation.lexemes ++ rest) := by
  induction derivation generalizing rest with
  | numeral written literal finite =>
      exact ⟨⟨literal, finite, sign⟩, joined⟩
  | constant named => exact ⟨sign, joined⟩
  | bracketed inner ih =>
      rw [lexemes, List.cons_append, List.append_assoc]
      exact ⟨trivial, ih (by simp [Lexeme.isSign]) ⟨trivial, joined⟩⟩
  | plain atom ih => exact ih sign joined
  | negated atom ih => exact ⟨trivial, ih sign joined⟩
  | factorial operand ih =>
      rw [lexemes, List.append_assoc]
      exact ih (by simp [Lexeme.isSign]) ⟨trivial, joined⟩
  | group inner ih =>
      rw [lexemes, List.cons_append, List.append_assoc]
      exact ⟨trivial, ih (by simp [Lexeme.isSign]) ⟨trivial, joined⟩⟩
  | groupFactorial operand ih =>
      rw [lexemes, List.append_assoc]
      exact ih (by simp [Lexeme.isSign]) ⟨trivial, joined⟩
  | factor operand ih => exact ih sign joined
  | application function listed argument ih =>
      obtain ⟨others, shape⟩ := argument.exists_lexemes_group_eq_cons
      refine ⟨⟨listed, ?_⟩, ih sign joined⟩
      rw [shape]
      rfl
  | logarithm base argument baseIH argumentIH =>
      obtain ⟨others, shape⟩ := argument.exists_lexemes_group_eq_cons
      rw [lexemes, List.cons_append, List.append_assoc]
      refine ⟨rfl, baseIH ?_ (argumentIH sign joined)⟩
      rw [shape]
      simp [Lexeme.isSign]
  | power operand ih => exact ih sign joined
  | raised base exponent baseIH exponentIH =>
      rw [lexemes, List.append_assoc]
      exact baseIH (by simp [Lexeme.isSign])
        ⟨trivial, exponentIH sign joined⟩
  | product operand ih => exact ih sign joined
  | multiplied mark first second firstIH secondIH =>
      rw [lexemes, List.append_assoc]
      exact firstIH (by simp [Lexeme.isSign])
        ⟨trivial, secondIH sign joined⟩
  | sum operand ih => exact ih sign joined
  | added first second firstIH secondIH =>
      rw [lexemes, List.append_assoc]
      exact firstIH (by simp [Lexeme.isSign])
        ⟨trivial, secondIH sign joined⟩
  | subtracted first second firstIH secondIH =>
      rw [lexemes, List.append_assoc]
      exact firstIH (by simp [Lexeme.isSign])
        ⟨trivial, secondIH sign joined⟩

/-- A derivation opens and closes as many brackets. -/
theorem count_brackets_lexemes {level : Level} {marked : Bool}
    (derivation : Derivation level marked) :
    derivation.lexemes.count .openBracket =
      derivation.lexemes.count .closeBracket := by
  induction derivation with
  | numeral written literal finite => rfl
  | constant named => rfl
  | bracketed inner ih => simp [lexemes, ih]
  | plain atom ih => exact ih
  | negated atom ih => simpa [lexemes] using ih
  | factorial operand ih => simpa [lexemes] using ih
  | group inner ih => simp [lexemes, ih]
  | groupFactorial operand ih => simpa [lexemes] using ih
  | factor operand ih => exact ih
  | application function listed argument ih => simpa [lexemes] using ih
  | logarithm base argument baseIH argumentIH =>
      simp [lexemes, baseIH, argumentIH]
  | power operand ih => exact ih
  | raised base exponent baseIH exponentIH =>
      simp [lexemes, baseIH, exponentIH]
  | product operand ih => exact ih
  | multiplied mark first second firstIH secondIH =>
      simp [lexemes, firstIH, secondIH]
  | sum operand ih => exact ih
  | added first second firstIH secondIH =>
      simp [lexemes, firstIH, secondIH]
  | subtracted first second firstIH secondIH =>
      simp [lexemes, firstIH, secondIH]

theorem lexemes_ne_nil {level : Level} {marked : Bool}
    (derivation : Derivation level marked) :
    derivation.lexemes ≠ [] := by
  induction derivation with
  | plain atom ih => exact ih
  | factor operand ih => exact ih
  | power operand ih => exact ih
  | product operand ih => exact ih
  | sum operand ih => exact ih
  | _ => simp [lexemes]

/-- A text that spells a derivation has its tokens. -/
theorem Spells.tokenize_eq {level : Level} {marked : Bool}
    {derivation : Derivation level marked} {text : String}
    (spells : derivation.Spells text) :
    tokenize text = .ok (Lexeme.tokens false derivation.lexemes) := by
  obtain ⟨cut, same, spaced, lexemes⟩ := spells
  have joined : Joined (derivation.lexemes ++ []) :=
    derivation.joined_lexemes_append (by simp) trivial
  rw [List.append_nil, ← lexemes] at joined
  rw [tokenize_eq_ok_iff]
  refine ⟨cut, same, ⟨joined.lexical spaced, ?_, ?_⟩, by rw [lexemes]⟩
  · rw [lexemes]
    exact derivation.lexemes_ne_nil
  · rw [lexemes]
    exact derivation.count_brackets_lexemes

end Derivation

end Calculator

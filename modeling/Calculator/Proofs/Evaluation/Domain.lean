import Calculator.Operation.Apply
import Calculator.Proofs.Binary64.Operations
import Mathlib.Analysis.Real.Pi.Irrational

/-!
# The domains of the operations

An operation that is applied to finite numbers fails, or has a result: what
is refused covers all arguments for which there is none.  Of the elementary
functions no more is needed than that they have a result inside their
mathematical domain, of which only the exact value of the argument counts.

The quotients of library functions need a little more, since a quotient of
two zeros or of two infinities has no result: the cosine is finite, and the
logarithm of a base is neither infinite nor zero.
-/

namespace Calculator

open Binary64

/-- A function has a result for the finite arguments whose value lies in the
domain. -/
def DefinedOn (domain : ℚ → Prop) (function : Float → Float) : Prop :=
  ∀ argument : Float, argument.isFinite = true →
    domain (toRat argument) → (function argument).isNaN = false

/-- What is relied on of a library of elementary functions. -/
structure Elementary.Documented (library : Elementary) : Prop where
  sin : DefinedOn (fun _ => True) library.sin
  /-- The cosine lies between minus one and one. -/
  cos : ∀ argument : Float, argument.isFinite = true →
    (library.cos argument).isFinite = true
  tan : DefinedOn (fun value => Real.cos value ≠ 0) library.tan
  asin : DefinedOn (fun value => -1 ≤ value ∧ value ≤ 1) library.asin
  acos : DefinedOn (fun value => -1 ≤ value ∧ value ≤ 1) library.acos
  atan : DefinedOn (fun _ => True) library.atan
  sinh : DefinedOn (fun _ => True) library.sinh
  cosh : DefinedOn (fun _ => True) library.cosh
  tanh : DefinedOn (fun _ => True) library.tanh
  asinh : DefinedOn (fun _ => True) library.asinh
  acosh : DefinedOn (fun value => 1 ≤ value) library.acosh
  atanh : DefinedOn (fun value => -1 < value ∧ value < 1) library.atanh
  exp : DefinedOn (fun _ => True) library.exp
  log : DefinedOn (fun value => 0 < value) library.log
  log2 : DefinedOn (fun value => 0 < value) library.log2
  log10 : DefinedOn (fun value => 0 < value) library.log10
  cbrt : DefinedOn (fun _ => True) library.cbrt
  /-- The logarithm of a base is a divisor. -/
  log2_base : ∀ base : Float, base.isFinite = true → 0 < toRat base →
    toRat base ≠ 1 →
      (library.log2 base).isFinite = true ∧ toRat (library.log2 base) ≠ 0
  /-- A power has a result unless its base is negative and its exponent is no
  integer. -/
  pow : ∀ base exponent : Float, base.isFinite = true →
    exponent.isFinite = true →
      ¬ (toRat base < 0 ∧ ¬ ∃ whole : ℤ, toRat exponent = whole) →
        (library.pow base exponent).isNaN = false

/-! ## Values of arguments -/

/-- The cosine of a rational number is not zero. -/
theorem cos_ratCast_ne_zero (value : ℚ) : Real.cos value ≠ 0 := by
  intro zero
  obtain ⟨index, turn⟩ := Real.cos_eq_zero_iff.mp zero
  have odd : (2 * index + 1 : ℝ) ≠ 0 := by
    exact_mod_cast (by omega : 2 * index + 1 ≠ 0)
  have isRational : Real.pi = ((2 * value / (2 * index + 1) : ℚ) : ℝ) := by
    push_cast
    rw [turn]
    field_simp
  exact irrational_pi ⟨_, isRational.symm⟩

section

variable {argument : Float} (finite : argument.isFinite = true)

include finite

theorem toRat_pos_of_not_le (positive : ¬ argument ≤ 0) :
    0 < toRat argument := by
  rw [le_iff_toRat_le finite isFinite_zero, toRat_zero] at positive
  exact not_le.mp positive

theorem toRat_ne_one_of_beq (different : (argument == 1) = false) :
    toRat argument ≠ 1 := by
  intro same
  rw [← toRat_one, ← beq_iff_toRat_eq finite isFinite_one, different]
    at same
  cases same

theorem toRat_between
    (inside : (decide (-1 ≤ argument) && decide (argument ≤ 1)) = true) :
    -1 ≤ toRat argument ∧ toRat argument ≤ 1 := by
  rwa [Bool.and_eq_true, decide_eq_true_iff, decide_eq_true_iff,
    le_iff_toRat_le isFinite_neg_one finite,
    le_iff_toRat_le finite isFinite_one, toRat_one, toRat_neg_one] at inside

theorem toRat_strictlyBetween
    (inside : ¬ (decide (argument ≤ -1) || decide (1 ≤ argument)) = true) :
    -1 < toRat argument ∧ toRat argument < 1 := by
  rwa [Bool.or_eq_true, decide_eq_true_iff, decide_eq_true_iff,
    le_iff_toRat_le finite isFinite_neg_one,
    le_iff_toRat_le isFinite_one finite, toRat_one, toRat_neg_one, not_or,
    not_le, not_le] at inside

end

theorem isFinite_constant (named : Constant) :
    named.value.isFinite = true := by
  cases named <;> decide

/-! ## Factorials -/

theorem two_pow_64_le : (2 : ℚ) ^ 64 ≤ 2 ^ 1024 - 2 ^ 970 := by
  rw [le_sub_iff_add_le]
  calc (2 : ℚ) ^ 64 + 2 ^ 970 ≤ 2 ^ 970 + 2 ^ 970 :=
        add_le_add_left (pow_le_pow_right₀ one_le_two (by decide)) _
    _ = 2 ^ 971 := by rw [← mul_two, ← pow_succ]
    _ ≤ 2 ^ 1024 := pow_le_pow_right₀ one_le_two (by decide)

/-- The numbers of which a factorial is the product are finite. -/
theorem isFinite_ofNat {number : Nat} (small : number < 2 ^ 64) :
    (ofNat number).isFinite = true := by
  obtain ⟨rank, rounds⟩ := exists_roundsTo
    (div_nonneg (Nat.cast_nonneg (α := ℚ) (number * one))
      (Nat.cast_nonneg 1))
  have below : (number : ℚ) < 2 ^ 1024 - 2 ^ 970 :=
    (by exact_mod_cast small : (number : ℚ) < 2 ^ 64).trans_le two_pow_64_le
  have finite : rank < infinityRank := by
    rw [← not_le, infinityRank_le_iff rounds, Nat.cast_one, div_one,
      Nat.cast_mul, mul_le_mul_iff_left₀ cast_one_pos]
    exact not_le.mpr below
  rw [ofNat, nearest, nearestRank_eq_min Nat.one_pos rounds,
    Nat.min_eq_right finite.le]
  exact isFinite_iff.mpr ⟨_, _, ofFloat_signed_of_lt false finite⟩

/-- A product that does not become infinite is finite. -/
theorem isFinite_of_descendingProduct {number : Nat} {product result : Float}
    (small : number < 2 ^ 64) (finite : product.isFinite = true)
    (multiplied : descendingProduct number product = some result) :
    result.isFinite = true := by
  fun_induction descendingProduct number product with
  | case1 product =>
      obtain rfl := Option.some.inj multiplied
      exact finite
  | case2 product =>
      obtain rfl := Option.some.inj multiplied
      exact finite
  | case3 product number next infinite => cases multiplied
  | case4 product number next bounded ih =>
      refine ih (by omega) ?_ multiplied
      exact isFinite_of_not_isInf
        (isNaN_mul finite (isFinite_ofNat small))
        (Bool.not_eq_true _ ▸ bounded)

theorem isNaN_of_factorial {argument value : Float}
    (applied : factorial argument = .ok value) : value.isNaN = false := by
  unfold factorial at applied
  split at applied
  · cases applied
  · split at applied
    · cases applied
    · split at applied
      · cases applied
      · next small =>
          split at applied
          · next product multiplied =>
              cases applied
              exact isNaN_of_isFinite (isFinite_of_descendingProduct
                (Nat.not_le.mp small) isFinite_one multiplied)
          · cases applied

/-! ## Operations -/

/-- What is not refused is the result. -/
theorem ite_error_eq_ok_iff {condition : Prop} [Decidable condition]
    {failure : CalculationError} {result value : Float} :
    (if condition then .error failure else .ok result :
        Except CalculationError Float) = .ok value ↔
      ¬ condition ∧ result = value := by
  split <;> simp [*]

theorem ite_ok_eq_ok_iff {condition : Prop} [Decidable condition]
    {failure : CalculationError} {result value : Float} :
    (if condition then .ok result else .error failure :
        Except CalculationError Float) = .ok value ↔
      condition ∧ result = value := by
  split <;> simp [*]

section

variable {library : Elementary} (documented : library.Documented)

include documented

/-- An operation on a finite number fails, or has a result. -/
theorem UnaryOperation.isNaN_of_apply {operation : UnaryOperation}
    {argument value : Float} (finite : argument.isFinite = true)
    (applied : operation.apply library argument = .ok value) :
    value.isNaN = false := by
  cases operation with
  | negate =>
      cases applied
      exact isNaN_of_isFinite (isFinite_neg finite)
  | factorial => exact isNaN_of_factorial applied
  | sin =>
      cases applied
      exact documented.sin _ finite trivial
  | cos =>
      cases applied
      exact isNaN_of_isFinite (documented.cos _ finite)
  | tan =>
      obtain ⟨-, rfl⟩ := ite_error_eq_ok_iff.mp applied
      exact documented.tan _ finite (cos_ratCast_ne_zero _)
  | sec =>
      obtain ⟨nonzero, rfl⟩ := ite_error_eq_ok_iff.mp applied
      have cosine := documented.cos _ finite
      exact isNaN_one_div (isNaN_of_isFinite cosine) nonzero
  | csc =>
      obtain ⟨nonzero, rfl⟩ := ite_error_eq_ok_iff.mp applied
      exact isNaN_one_div (documented.sin _ finite trivial) nonzero
  | cosec =>
      obtain ⟨nonzero, rfl⟩ := ite_error_eq_ok_iff.mp applied
      exact isNaN_one_div (documented.sin _ finite trivial) nonzero
  | cot =>
      obtain ⟨nonzero, rfl⟩ := ite_error_eq_ok_iff.mp applied
      have cosine := documented.cos _ finite
      exact isNaN_div (isNaN_of_isFinite cosine)
        (documented.sin _ finite trivial) nonzero (.inl cosine)
  | asin =>
      obtain ⟨inside, rfl⟩ := ite_ok_eq_ok_iff.mp applied
      exact documented.asin _ finite (toRat_between finite inside)
  | acos =>
      obtain ⟨inside, rfl⟩ := ite_ok_eq_ok_iff.mp applied
      exact documented.acos _ finite (toRat_between finite inside)
  | atan =>
      cases applied
      exact documented.atan _ finite trivial
  | sinh =>
      cases applied
      exact documented.sinh _ finite trivial
  | cosh =>
      cases applied
      exact documented.cosh _ finite trivial
  | tanh =>
      cases applied
      exact documented.tanh _ finite trivial
  | asinh =>
      cases applied
      exact documented.asinh _ finite trivial
  | acosh =>
      obtain ⟨least, rfl⟩ := ite_error_eq_ok_iff.mp applied
      rw [lt_iff_toRat_lt finite isFinite_one, toRat_one, not_lt] at least
      exact documented.acosh _ finite least
  | atanh =>
      obtain ⟨inside, rfl⟩ := ite_error_eq_ok_iff.mp applied
      exact documented.atanh _ finite (toRat_strictlyBetween finite inside)
  | sqrt =>
      obtain ⟨positive, rfl⟩ := ite_error_eq_ok_iff.mp applied
      exact isNaN_sqrt finite positive
  | cbrt =>
      cases applied
      exact documented.cbrt _ finite trivial
  | exp =>
      cases applied
      exact documented.exp _ finite trivial
  | ln =>
      obtain ⟨positive, rfl⟩ := ite_error_eq_ok_iff.mp applied
      exact documented.log _ finite (toRat_pos_of_not_le finite positive)
  | log2 =>
      obtain ⟨positive, rfl⟩ := ite_error_eq_ok_iff.mp applied
      exact documented.log2 _ finite (toRat_pos_of_not_le finite positive)
  | log =>
      obtain ⟨positive, rfl⟩ := ite_error_eq_ok_iff.mp applied
      exact documented.log10 _ finite (toRat_pos_of_not_le finite positive)
  | abs =>
      cases applied
      exact isNaN_of_isFinite (isFinite_abs finite)
  | ceil =>
      cases applied
      exact isNaN_mapMagnitude finite _
  | floor =>
      cases applied
      exact isNaN_mapMagnitude finite _
  | round =>
      cases applied
      exact isNaN_mapMagnitude finite _

theorem isNaN_of_power {base exponent value : Float}
    (finite : base.isFinite = true) (exponentFinite : exponent.isFinite = true)
    (applied : power library base exponent = .ok value) :
    value.isNaN = false := by
  unfold power at applied
  split at applied
  · cases applied
    exact isNaN_of_isFinite isFinite_one
  · obtain ⟨inside, rfl⟩ := ite_error_eq_ok_iff.mp applied
    refine documented.pow _ _ finite exponentFinite ?_
    rintro ⟨negative, fractional⟩
    obtain ⟨sign, rank, found⟩ := isFinite_iff.mp exponentFinite
    apply inside
    rw [← isInteger_iff found] at fractional
    rw [Bool.and_eq_true, decide_eq_true_iff,
      lt_iff_toRat_lt finite isFinite_zero, toRat_zero, Bool.not_eq_true']
    exact ⟨negative, Bool.eq_false_of_not_eq_true fractional⟩

theorem isNaN_of_logarithm {base argument value : Float}
    (finite : base.isFinite = true) (argumentFinite : argument.isFinite = true)
    (applied : logarithm library base argument = .ok value) :
    value.isNaN = false := by
  obtain ⟨inside, rfl⟩ := ite_error_eq_ok_iff.mp applied
  simp only [Bool.or_eq_true, decide_eq_true_iff, not_or,
    Bool.not_eq_true] at inside
  obtain ⟨⟨argumentPositive, basePositive⟩, notOne⟩ := inside
  have positive := toRat_pos_of_not_le finite basePositive
  obtain ⟨divisor, nonzero⟩ := documented.log2_base base finite positive
    (toRat_ne_one_of_beq finite notOne)
  refine isNaN_div
    (documented.log2 _ argumentFinite
      (toRat_pos_of_not_le argumentFinite argumentPositive))
    (isNaN_of_isFinite divisor) ?_ (.inr divisor)
  rw [beq_iff_toRat_eq divisor isFinite_zero, toRat_zero]
  exact nonzero

/-- An operation on finite numbers fails, or has a result. -/
theorem BinaryOperation.isNaN_of_apply {operation : BinaryOperation}
    {first second value : Float} (finite : first.isFinite = true)
    (secondFinite : second.isFinite = true)
    (applied : operation.apply library first second = .ok value) :
    value.isNaN = false := by
  cases operation with
  | add =>
      cases applied
      exact isNaN_add finite secondFinite
  | subtract =>
      cases applied
      exact isNaN_sub finite secondFinite
  | multiply =>
      cases applied
      exact isNaN_mul finite secondFinite
  | divide =>
      obtain ⟨nonzero, rfl⟩ := ite_error_eq_ok_iff.mp applied
      exact isNaN_div (isNaN_of_isFinite finite)
        (isNaN_of_isFinite secondFinite) nonzero (.inl finite)
  | remainder =>
      obtain ⟨-, rfl⟩ := ite_error_eq_ok_iff.mp applied
      exact isNaN_remainder finite secondFinite
  | power => exact isNaN_of_power documented finite secondFinite applied
  | logarithm =>
      exact isNaN_of_logarithm documented finite secondFinite applied

/-- An operation on as many finite numbers as it has operands fails, or has a
result. -/
theorem Operation.isNaN_of_applyTo? {operation : Operation}
    {operands : List Float} {value : Float}
    (finite : ∀ operand ∈ operands, operand.isFinite = true)
    (applied : operation.applyTo? library operands = some (.ok value)) :
    value.isNaN = false := by
  unfold applyTo? at applied
  split at applied
  · next named =>
      cases applied
      exact isNaN_of_isFinite (isFinite_constant named)
  · exact UnaryOperation.isNaN_of_apply documented
      (finite _ (by simp)) (Option.some.inj applied)
  · exact BinaryOperation.isNaN_of_apply documented
      (finite _ (by simp)) (finite _ (by simp)) (Option.some.inj applied)
  · cases applied

end

end Calculator

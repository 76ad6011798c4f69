import Calculator.Proofs.Binary64.Product
import Calculator.Proofs.Evaluation.Domain

/-!
# Factorials

The numbers from the argument of a factorial down to two are multiplied one
after the other, and each product is rounded.  A rounding changes a product by
a small factor only, and 170 of them leave the largest float between the
factorials of 170 and of 171.  So the multiplication from 171 down becomes
infinite, and the ones from smaller numbers down stay finite.

A larger number multiplied to a larger product gives a product that is not
smaller, since rounding is monotone.  So the multiplications from all larger
numbers become infinite as well, and after no more steps.
-/

namespace Calculator

open Binary64

/-! ## Products with a natural number -/

theorem ofFloat_ofNat_of_lt {number : Nat} (small : number < 2 ^ 64) :
    ofFloat (ofNat number) = .finite false (nearestRank (number * one) 1) := by
  have finite := isFinite_ofNat small
  rw [ofNat, nearest] at finite ⊢
  rcases Nat.lt_or_eq_of_le (nearestRank_le (number * one) 1)
    with below | infinite
  · exact ofFloat_signed_of_lt false below
  · obtain ⟨negative, rank, found⟩ := isFinite_iff.mp finite
    rw [infinite, ofFloat_signed_infinityRank] at found
    cases found

/-- The rank of the product of a magnitude with a natural number. -/
def productRank (rank number : Nat) : Nat :=
  nearestRank (magnitude rank * magnitude (nearestRank (number * one) 1)) one

theorem productRank_le (rank number : Nat) :
    productRank rank number ≤ infinityRank :=
  nearestRank_le _ _

theorem mul_ofNat_eq {product : Float} {rank number : Nat}
    (found : ofFloat product = .finite false rank)
    (small : number < 2 ^ 64) :
    product * ofNat number = signed false (productRank rank number) := by
  rw [mul_eq_nearest found (ofFloat_ofNat_of_lt small), nearest, productRank,
    Bool.false_xor]

/-- A larger number multiplied to a larger product gives no smaller
product. -/
theorem productRank_le_productRank {rank otherRank number otherNumber : Nat}
    (rankLe : rank ≤ otherRank) (numberLe : number ≤ otherNumber) :
    productRank rank number ≤ productRank otherRank otherNumber := by
  have factorLe : nearestRank (number * one) 1 ≤
      nearestRank (otherNumber * one) 1 :=
    nearestRank_le_nearestRank Nat.one_pos (Nat.mul_le_mul_right _ numberLe)
  refine nearestRank_le_nearestRank (Nat.cast_pos.mp cast_one_pos) ?_
  exact Nat.mul_le_mul (magnitude_strictMono.monotone rankLe)
    (magnitude_strictMono.monotone factorLe)

/-- The product with a number that has the bits of a significand is rounded
from the exact product. -/
theorem exists_roundsTo_productRank (rank : Nat) {number : Nat}
    (small : number < 2 ^ 53) :
    ∃ nearestOne, RoundsTo (magnitude rank * number : ℚ) nearestOne ∧
      productRank rank number = min infinityRank nearestOne := by
  obtain ⟨factor, found, exactly⟩ := ofFloat_ofNat small
  rw [ofFloat_ofNat_of_lt (small.trans (by decide)),
    Binary64.finite.injEq] at found
  have value : ((magnitude rank * magnitude factor : Nat) : ℚ) / one =
      magnitude rank * number := by
    rw [exactly, Nat.cast_mul, Nat.cast_mul, ← mul_assoc,
      mul_div_cancel_right₀ _ cast_one_pos.ne']
  obtain ⟨nearestOne, rounds⟩ := exists_roundsTo
    (mul_nonneg (Nat.cast_nonneg (α := ℚ) (magnitude rank))
      (Nat.cast_nonneg number))
  refine ⟨nearestOne, rounds, ?_⟩
  rw [← value] at rounds
  rw [productRank, found.2]
  exact nearestRank_eq_min (Nat.cast_pos.mp cast_one_pos) rounds

theorem roundsTo_productRank {rank number : Nat} (small : number < 2 ^ 53)
    (bounded : productRank rank number < infinityRank) :
    RoundsTo (magnitude rank * number : ℚ) (productRank rank number) := by
  obtain ⟨nearestOne, rounds, isMin⟩ := exists_roundsTo_productRank rank small
  have same : productRank rank number = nearestOne := by omega
  rwa [same]

/-- A product that is half as large as the largest ones is finite. -/
theorem productRank_lt {rank number : Nat} (small : number < 2 ^ 53)
    (bound : (magnitude rank * number : ℚ) < 2 ^ 1023 * one) :
    productRank rank number < infinityRank := by
  obtain ⟨nearestOne, rounds, isMin⟩ := exists_roundsTo_productRank rank small
  have half : (2 ^ 1023 : ℚ) ≤ 2 ^ 1024 - 2 ^ 970 := by
    have double : (2 ^ 1024 : ℚ) = 2 ^ 1023 * 2 := pow_succ 2 1023
    have power : (2 ^ 970 : ℚ) ≤ 2 ^ 1023 :=
      pow_le_pow_right₀ one_le_two (by decide)
    rw [double, mul_two, add_sub_assoc]
    exact le_add_of_nonneg_right (sub_nonneg.mpr power)
  have notLarge : ¬ infinityRank ≤ nearestOne := by
    rw [infinityRank_le_iff rounds, not_le]
    exact bound.trans_le (mul_le_mul_of_nonneg_right half cast_one_pos.le)
  omega

/-- A product with a positive number is not smaller. -/
theorem le_productRank {rank number : Nat} (positive : 0 < number)
    (small : number < 2 ^ 53)
    (bounded : productRank rank number < infinityRank) :
    rank ≤ productRank rank number := by
  refine (roundsTo_magnitude rank).rank_le
    (roundsTo_productRank small bounded) ?_
  exact le_mul_of_one_le_right (Nat.cast_nonneg _)
    (Nat.one_le_cast.mpr positive)

/-- The only infinite magnitude is the one of infinity's rank. -/
theorem isInf_signed_iff {rank : Nat} (isNumber : rank ≤ infinityRank) :
    (signed false rank).isInf = true ↔ rank = infinityRank := by
  rcases Nat.lt_or_eq_of_le isNumber with below | rfl
  · refine iff_of_false ?_ below.ne
    have finite := isFinite_unpacked
      (isFinite_iff.mpr ⟨_, _, ofFloat_signed_of_lt false below⟩)
    change ¬ (unpacked (signed false rank)).isInf = true
    obtain ⟨sign, here⟩ | ⟨_, _, _, _, here⟩ := zero_or_finite finite
    · rw [here]
      exact Bool.false_ne_true
    · rw [here]
      exact Bool.false_ne_true
  · exact iff_of_true (by decide) rfl

section

variable {product : Float} {rank number : Nat}
  (found : ofFloat product = .finite false rank) (small : number < 2 ^ 64)

include found small

theorem isInf_mul_ofNat_iff :
    (product * ofNat number).isInf = true ↔
      productRank rank number = infinityRank := by
  rw [mul_ofNat_eq found small, isInf_signed_iff (productRank_le _ _)]

theorem ofFloat_mul_ofNat
    (bounded : ¬ (product * ofNat number).isInf = true) :
    productRank rank number < infinityRank ∧
      ofFloat (product * ofNat number) =
        .finite false (productRank rank number) := by
  rw [isInf_mul_ofNat_iff found small] at bounded
  have below := Nat.lt_of_le_of_ne (productRank_le rank number) bounded
  rw [mul_ofNat_eq found small]
  exact ⟨below, ofFloat_signed_of_lt false below⟩

end

/-! ## Counted multiplications -/

/-- The product of a number with all numbers from the given one down to two,
unless it becomes infinite on the way, and how often it is multiplied. -/
def countedProduct : Nat → Float → Option Float × Nat
  | 0, product => (some product, 0)
  | 1, product => (some product, 0)
  | number + 2, product =>
      let next := product * Binary64.ofNat (number + 2)
      if next.isInf then
        (none, 1)
      else
        let rest := countedProduct (number + 1) next
        (rest.1, rest.2 + 1)

/-- The factorial, and how often it multiplies. -/
def countedFactorial (argument : Float) :
    Except CalculationError Float × Nat :=
  if argument < 0 then
    (.error (.negativeArgument "!" argument), 0)
  else if !Binary64.isInteger argument then
    (.error (.fractionalArgument "!" argument), 0)
  else if 2 ^ 64 ≤ Binary64.wholePart argument then
    (.error (.overflow "!" argument), 0)
  else
    match countedProduct (Binary64.wholePart argument) 1 with
    | (some product, steps) => (.ok product, steps)
    | (none, steps) => (.error (.overflow "!" argument), steps)

/-- Counting does not change the product. -/
@[simp]
theorem fst_countedProduct (number : Nat) (product : Float) :
    (countedProduct number product).1 = descendingProduct number product := by
  fun_induction countedProduct number product with
  | case1 => rfl
  | case2 => rfl
  | case3 number product next infinite =>
      rw [descendingProduct]
      exact (if_pos infinite).symm
  | case4 number product next bounded rest ih =>
      rw [descendingProduct]
      exact ih.trans (if_neg bounded).symm

/-- Counting does not change the factorial. -/
@[simp]
theorem fst_countedFactorial (argument : Float) :
    (countedFactorial argument).1 = factorial argument := by
  have product := fst_countedProduct (wholePart argument) 1
  rw [countedFactorial, factorial]
  split
  · rfl
  · split
    · rfl
    · split
      · rfl
      · split
        · next same =>
            rw [same] at product
            rw [← product]
        · next same =>
            rw [same] at product
            rw [← product]

/-- There is one multiplication for each number from two on, at most. -/
theorem snd_countedProduct_le (number : Nat) (product : Float) :
    (countedProduct number product).2 ≤ number - 1 := by
  fun_induction countedProduct number product with
  | case1 => exact Nat.zero_le _
  | case2 => exact Nat.zero_le _
  | case3 number product next infinite => exact Nat.le_add_left 1 number
  | case4 number product next bounded rest ih => exact Nat.succ_le_succ ih

theorem countedProduct_of_isInf {number : Nat} {product : Float}
    (infinite : (product * ofNat (number + 2)).isInf = true) :
    countedProduct (number + 2) product = (none, 1) := by
  rw [countedProduct]
  exact if_pos infinite

theorem countedProduct_of_not_isInf {number : Nat} {product : Float}
    (bounded : ¬ (product * ofNat (number + 2)).isInf = true) :
    countedProduct (number + 2) product =
      ((countedProduct (number + 1) (product * ofNat (number + 2))).1,
        (countedProduct (number + 1)
          (product * ofNat (number + 2))).2 + 1) := by
  rw [countedProduct]
  exact if_neg bounded

/-- A product that becomes infinite was multiplied. -/
theorem snd_pos_of_countedProduct {number : Nat} {product : Float}
    {steps : Nat} (infinite : countedProduct number product = (none, steps)) :
    0 < steps := by
  rcases number with _ | _ | number
  · cases infinite
  · cases infinite
  · by_cases nextInfinite : (product * ofNat (number + 2)).isInf = true
    · rw [countedProduct_of_isInf nextInfinite] at infinite
      cases infinite
      exact Nat.one_pos
    · rw [countedProduct_of_not_isInf nextInfinite] at infinite
      obtain ⟨-, rfl⟩ := Prod.mk.inj infinite
      exact Nat.succ_pos _

/-! ## Larger numbers -/

/-- Where the multiplication from one number down becomes infinite, the one
from a larger number down does so in no more steps.  The induction is along
the smaller number; both products are multiplied in step. -/
theorem exists_countedProduct_eq_none {number : Nat} {product : Float}
    {steps : Nat} (infinite : countedProduct number product = (none, steps))
    {rank otherNumber otherRank : Nat} {otherProduct : Float}
    (found : ofFloat product = .finite false rank)
    (otherFound : ofFloat otherProduct = .finite false otherRank)
    (rankLe : rank ≤ otherRank) (numberLe : number ≤ otherNumber)
    (small : otherNumber < 2 ^ 64) :
    ∃ fewer ≤ steps, countedProduct otherNumber otherProduct =
      (none, fewer) := by
  induction number
    generalizing product steps rank otherNumber otherRank otherProduct with
  | zero => cases infinite
  | succ number ih =>
      cases number with
      | zero => cases infinite
      | succ number =>
          obtain ⟨other, rfl⟩ : ∃ other, otherNumber = other + 2 :=
            ⟨otherNumber - 2, by omega⟩
          have le := productRank_le_productRank rankLe numberLe
          by_cases otherInfinite :
              (otherProduct * ofNat (other + 2)).isInf = true
          · refine ⟨1, ?_, countedProduct_of_isInf otherInfinite⟩
            exact snd_pos_of_countedProduct infinite
          · have bounded :
                ¬ (product * ofNat (number + 2)).isInf = true := by
              rw [isInf_mul_ofNat_iff otherFound small] at otherInfinite
              rw [isInf_mul_ofNat_iff found (by omega)]
              intro nextInfinite
              rw [nextInfinite] at le
              exact otherInfinite (Nat.le_antisymm (productRank_le _ _) le)
            obtain ⟨-, next⟩ := ofFloat_mul_ofNat found (by omega) bounded
            obtain ⟨-, otherNext⟩ :=
              ofFloat_mul_ofNat otherFound small otherInfinite
            rw [countedProduct_of_not_isInf bounded] at infinite
            obtain ⟨restInfinite, rfl⟩ := Prod.mk.inj infinite
            obtain ⟨fewer, fewerLe, same⟩ :=
              ih (Prod.ext restInfinite rfl) next otherNext le
                (Nat.le_of_succ_le_succ numberLe) (Nat.lt_of_succ_lt small)
            refine ⟨fewer + 1, Nat.succ_le_succ fewerLe, ?_⟩
            rw [countedProduct_of_not_isInf otherInfinite, same]

/-! ## Products that stay finite -/

/-- A result is what a number becomes that is multiplied by all whole numbers
from the given one down to two in turn, where each product is rounded to the
nearest float. -/
inductive Accumulates : Nat → Float → Float → Prop where
  | complete {number : Nat} {product : Float} (least : number ≤ 1) :
      Accumulates number product product
  | multiply {number : Nat} {product next result : Float}
      (nearest : IsNearest (toRat product * (number + 2 : Nat)) next)
      (rest : Accumulates (number + 1) next result) :
      Accumulates (number + 2) product result

/-- Each product that is not infinite is the float nearest to the exact one,
and is not smaller than the one before. -/
theorem isNearest_mul_ofNat {product : Float} {rank number : Nat}
    (found : ofFloat product = .finite false rank) (positive : 0 < number)
    (small : number < 2 ^ 53)
    (bounded : ¬ (product * ofNat number).isInf = true) :
    IsNearest (toRat product * number) (product * ofNat number) ∧
      ∃ nextRank ≥ rank,
        ofFloat (product * ofNat number) = .finite false nextRank := by
  have most := small.trans (by decide : 2 ^ 53 < 2 ^ 64)
  obtain ⟨below, next⟩ := ofFloat_mul_ofNat found most bounded
  refine ⟨?_, _, le_productRank positive small below, next⟩
  rw [mul_ofNat_eq found most]
  refine isNearest_signed ?_ below
  have value : toRat product * number * one = magnitude rank * number := by
    rw [toRat_of_ofFloat found, if_neg Bool.false_ne_true, mul_right_comm,
      div_mul_cancel₀ _ cast_one_pos.ne']
  rw [value]
  exact roundsTo_productRank small below

/-- A product that does not become infinite is accumulated with each
multiplication rounded, and does not decrease. -/
theorem accumulates_of_descendingProduct {number rank : Nat}
    {product result : Float} (small : number < 2 ^ 53)
    (found : ofFloat product = .finite false rank)
    (multiplied : descendingProduct number product = some result) :
    Accumulates number product result ∧
      ∃ resultRank ≥ rank, ofFloat result = .finite false resultRank := by
  induction number generalizing product rank with
  | zero =>
      obtain rfl := Option.some.inj multiplied
      exact ⟨.complete (Nat.zero_le 1), rank, le_rfl, found⟩
  | succ number ih =>
      cases number with
      | zero =>
          obtain rfl := Option.some.inj multiplied
          exact ⟨.complete le_rfl, rank, le_rfl, found⟩
      | succ number =>
          rw [descendingProduct] at multiplied
          by_cases infinite : (product * ofNat (number + 2)).isInf = true
          · rw [if_pos infinite] at multiplied
            cases multiplied
          · rw [if_neg infinite] at multiplied
            obtain ⟨nearest, nextRank, le, next⟩ :=
              isNearest_mul_ofNat found (Nat.succ_pos _) small infinite
            obtain ⟨rest, resultRank, restLe, last⟩ :=
              ih (Nat.lt_of_succ_lt small) next multiplied
            exact ⟨.multiply nearest rest, resultRank, le.trans restLe, last⟩

theorem one_le_of_ofFloat {result : Float} {rank : Nat}
    (found : ofFloat result = .finite false rank)
    (least : 1023 * 2 ^ 52 ≤ rank) : 1 ≤ result := by
  have finite := isFinite_iff.mpr ⟨_, _, found⟩
  have le := cast_magnitude_le least
  rw [magnitude_one] at le
  rw [le_iff_toRat_le isFinite_one finite, toRat_one, toRat_of_ofFloat found,
    if_neg Bool.false_ne_true, one_le_div₀ cast_one_pos]
  exact le

/-- A factorial that is not too large is a finite number, at least one. -/
theorem factorial_accumulates {number : Nat} {result : Float}
    (small : number ≤ 170)
    (multiplied : descendingProduct number 1 = some result) :
    result.isFinite = true ∧ 1 ≤ result ∧ Accumulates number 1 result := by
  obtain ⟨accumulated, rank, least, found⟩ :=
    accumulates_of_descendingProduct (by omega) ofFloat_one multiplied
  exact ⟨isFinite_iff.mpr ⟨_, _, found⟩, one_le_of_ofFloat found least,
    accumulated⟩

/-! ## The first argument that is too large -/

/-- The next product and the exact product are close to each other. -/
theorem productRank_close {rank number : Nat} (full : 2 ^ 52 < rank)
    (positive : 0 < number) (small : number < 2 ^ 53)
    (bounded : productRank rank number < infinityRank) :
    (magnitude rank * number : ℚ) ≤
        roundingFactor * magnitude (productRank rank number) ∧
      (magnitude (productRank rank number) : ℚ) ≤
        roundingFactor * (magnitude rank * number) :=
  (roundsTo_productRank small bounded).le_mul_roundingFactor
    (full.trans_le (le_productRank positive small bounded))

/-- What a product is multiplied by at most when it is multiplied by all whole
numbers from the given one down: the factorial, with room for the roundings. -/
def growth (number : Nat) : ℚ :=
  number.factorial * roundingFactor ^ number

theorem growth_succ (number : Nat) :
    growth (number + 1) =
      roundingFactor * (number + 1 : Nat) * growth number := by
  rw [growth, growth, Nat.factorial_succ, Nat.cast_mul, pow_succ]
  ring

theorem one_le_growth (number : Nat) : 1 ≤ growth number :=
  one_le_mul_of_one_le_of_one_le
    (Nat.one_le_cast.mpr (Nat.factorial_pos number))
    (one_le_pow₀ one_le_roundingFactor)

theorem growth_mono : Monotone growth := by
  refine monotone_nat_of_le_succ fun number => ?_
  rw [growth_succ]
  refine le_mul_of_one_le_left (zero_le_one.trans (one_le_growth number)) ?_
  exact one_le_mul_of_one_le_of_one_le one_le_roundingFactor
    (Nat.one_le_cast.mpr (Nat.succ_pos number))

/-- Where the exact product is small enough for all roundings, no product
becomes infinite. -/
theorem exists_descendingProduct_of_lt {number rank : Nat} {product : Float}
    (small : number < 2 ^ 53) (found : ofFloat product = .finite false rank)
    (full : 2 ^ 52 < rank)
    (bound : (magnitude rank * growth number : ℚ) < 2 ^ 1023 * one) :
    ∃ result, descendingProduct number product = some result := by
  induction number generalizing product rank with
  | zero => exact ⟨product, rfl⟩
  | succ number ih =>
      cases number with
      | zero => exact ⟨product, rfl⟩
      | succ number =>
          have nonneg : (0 : ℚ) ≤ magnitude rank * (number + 2 : Nat) :=
            mul_nonneg (Nat.cast_nonneg _) (Nat.cast_nonneg _)
          have exactLe :
              (magnitude rank * (number + 2 : Nat) : ℚ) ≤
                roundingFactor * (magnitude rank * (number + 2 : Nat)) :=
            le_mul_of_one_le_left nonneg one_le_roundingFactor
          have split : (magnitude rank * growth (number + 2) : ℚ) =
              roundingFactor * (magnitude rank * (number + 2 : Nat)) *
                growth (number + 1) := by
            rw [growth_succ (number + 1)]
            ring
          have later := one_le_growth (number + 1)
          rw [split] at bound
          have below : productRank rank (number + 2) < infinityRank :=
            productRank_lt small (lt_of_le_of_lt
              (exactLe.trans
                (le_mul_of_one_le_right (nonneg.trans exactLe) later))
              bound)
          have most := small.trans (by decide : 2 ^ 53 < 2 ^ 64)
          have bounded : ¬ (product * ofNat (number + 2)).isInf = true := by
            rw [isInf_mul_ofNat_iff found most]
            exact below.ne
          obtain ⟨-, next⟩ := ofFloat_mul_ofNat found most bounded
          have close := (productRank_close full (by omega) small below).2
          have nextBound :
              (magnitude (productRank rank (number + 2)) *
                growth (number + 1) : ℚ) < 2 ^ 1023 * one :=
            lt_of_le_of_lt
              (mul_le_mul_of_nonneg_right close (zero_le_one.trans later))
              bound
          obtain ⟨result, multiplied⟩ :=
            ih (Nat.lt_of_succ_lt small) next
              (full.trans_le (le_productRank (by omega) small below)) nextBound
          refine ⟨result, ?_⟩
          rw [descendingProduct]
          exact (if_neg bounded).trans multiplied

/-- A product that does not become infinite is not much smaller than the exact
product. -/
theorem mul_factorial_le_of_descendingProduct
    {number rank resultRank : Nat} {product result : Float}
    (small : number < 2 ^ 53) (found : ofFloat product = .finite false rank)
    (full : 2 ^ 52 < rank)
    (multiplied : descendingProduct number product = some result)
    (last : ofFloat result = .finite false resultRank) :
    (magnitude rank * number.factorial : ℚ) ≤
      roundingFactor ^ number * magnitude resultRank := by
  induction number generalizing product rank with
  | zero =>
      obtain rfl := Option.some.inj multiplied
      rw [found, Binary64.finite.injEq] at last
      rw [last.2, Nat.factorial_zero, Nat.cast_one, mul_one, pow_zero, one_mul]
  | succ number ih =>
      cases number with
      | zero =>
          obtain rfl := Option.some.inj multiplied
          rw [found, Binary64.finite.injEq] at last
          rw [last.2, Nat.factorial_one, Nat.cast_one, mul_one, pow_one]
          exact le_mul_of_one_le_left (Nat.cast_nonneg _) one_le_roundingFactor
      | succ number =>
          rw [descendingProduct] at multiplied
          by_cases infinite : (product * ofNat (number + 2)).isInf = true
          · rw [if_pos infinite] at multiplied
            cases multiplied
          · rw [if_neg infinite] at multiplied
            have most := small.trans (by decide : 2 ^ 53 < 2 ^ 64)
            obtain ⟨below, next⟩ := ofFloat_mul_ofNat found most infinite
            have close := (productRank_close full (by omega) small below).1
            have rest := ih (Nat.lt_of_succ_lt small) next
              (full.trans_le (le_productRank (by omega) small below))
              multiplied
            calc (magnitude rank * (number + 2).factorial : ℚ)
                = magnitude rank * (number + 2 : Nat) *
                    (number + 1).factorial := by
                  rw [Nat.factorial_succ (number + 1), Nat.cast_mul, mul_assoc]
              _ ≤ roundingFactor *
                    magnitude (productRank rank (number + 2)) *
                      (number + 1).factorial :=
                  mul_le_mul_of_nonneg_right close (Nat.cast_nonneg _)
              _ ≤ roundingFactor *
                    (roundingFactor ^ (number + 1) * magnitude resultRank) := by
                  rw [mul_assoc]
                  exact mul_le_mul_of_nonneg_left rest
                    (zero_le_one.trans one_le_roundingFactor)
              _ = roundingFactor ^ (number + 2) * magnitude resultRank := by
                  rw [← mul_assoc, ← pow_succ']

theorem growth_170_lt : growth 170 < 2 ^ 1023 := by
  have exactly : Nat.factorial 170 * 1025 ^ 170 < 2 ^ 1023 * 1024 ^ 170 := by
    decide +kernel
  rw [growth, roundingFactor, div_pow, ← mul_div_assoc,
    div_lt_iff₀ (by positivity)]
  exact_mod_cast exactly

theorem lt_factorial_171 :
    roundingFactor ^ 171 * 2 ^ 1024 < (Nat.factorial 171 : ℚ) := by
  have exactly : 1025 ^ 171 * 2 ^ 1024 < Nat.factorial 171 * 1024 ^ 171 := by
    decide +kernel
  rw [roundingFactor, div_pow, div_mul_eq_mul_div, div_lt_iff₀ (by positivity)]
  exact_mod_cast exactly

/-- The product from 171 down becomes infinite. -/
theorem descendingProduct_171 : descendingProduct 171 1 = none := by
  cases multiplied : descendingProduct 171 1 with
  | none => rfl
  | some result =>
      obtain ⟨-, resultRank, -, last⟩ :=
        accumulates_of_descendingProduct (by decide) ofFloat_one multiplied
      have atLeast := mul_factorial_le_of_descendingProduct (by decide)
        ofFloat_one (by decide) multiplied last
      have finite := cast_magnitude_lt (lt_of_ofFloat last)
      rw [magnitude_one] at atLeast
      rw [cast_magnitude_infinityRank] at finite
      have factorPos := zero_lt_one.trans_le one_le_roundingFactor
      have less : (one * Nat.factorial 171 : ℚ) < one * Nat.factorial 171 :=
        calc (one * Nat.factorial 171 : ℚ)
            ≤ roundingFactor ^ 171 * magnitude resultRank := atLeast
          _ < roundingFactor ^ 171 * (2 ^ 1024 * one) :=
              mul_lt_mul_of_pos_left finite (pow_pos factorPos 171)
          _ = one * (roundingFactor ^ 171 * 2 ^ 1024) := by
              rw [← mul_assoc, mul_comm]
          _ < one * Nat.factorial 171 :=
              mul_lt_mul_of_pos_left lt_factorial_171 cast_one_pos
      exact absurd less (lt_irrefl _)

/-- So do all products from larger numbers down, and after no more steps. -/
theorem exists_countedProduct_of_large {number : Nat} (large : 171 ≤ number)
    (small : number < 2 ^ 64) :
    ∃ steps ≤ 170, countedProduct number 1 = (none, steps) := by
  have most := snd_countedProduct_le 171 1
  have product := fst_countedProduct 171 1
  cases counted : countedProduct 171 1 with
  | mk found steps =>
      rw [counted] at most product
      obtain rfl : found = none := product.trans descendingProduct_171
      obtain ⟨fewer, fewerLe, infinite⟩ :=
        exists_countedProduct_eq_none counted ofFloat_one ofFloat_one le_rfl
          large small
      exact ⟨fewer, fewerLe.trans most, infinite⟩

/-- The products from smaller numbers down stay finite. -/
theorem exists_descendingProduct_of_small {number : Nat}
    (small : number ≤ 170) :
    ∃ result, descendingProduct number 1 = some result := by
  refine exists_descendingProduct_of_lt (by omega) ofFloat_one (by decide) ?_
  rw [magnitude_one, mul_comm]
  exact mul_lt_mul_of_pos_right ((growth_mono small).trans_lt growth_170_lt)
    cast_one_pos

/-! ## Arguments -/

/-- The value of a float is the given natural number. -/
structure IsWhole (argument : Float) (number : Nat) : Prop where
  finite : argument.isFinite = true
  value : toRat argument = number

/-- A float is not negative and no natural number either: it is no number,
positive infinity, or a finite number that is no integer. -/
def IsFractional (argument : Float) : Prop :=
  argument.isNaN = true ∨ argument = 1 / 0 ∨
    argument.isFinite = true ∧ 0 ≤ argument ∧
      ∀ whole : ℤ, toRat argument ≠ whole

theorem not_lt_zero_iff {argument : Float}
    (finite : argument.isFinite = true) :
    ¬ argument < 0 ↔ 0 ≤ toRat argument := by
  rw [lt_iff_toRat_lt finite isFinite_zero, toRat_zero, not_lt]

/-- The float is a natural number exactly when it is an integer that is not
negative. -/
theorem exists_isWhole_iff {argument : Float} :
    (∃ number, IsWhole argument number) ↔
      ¬ argument < 0 ∧ isInteger argument = true := by
  constructor
  · rintro ⟨number, finite, value⟩
    obtain ⟨negative, rank, found⟩ := isFinite_iff.mp finite
    rw [not_lt_zero_iff finite, isInteger_iff found, value]
    exact ⟨Nat.cast_nonneg number, number, (Int.cast_natCast number).symm⟩
  · rintro ⟨nonneg, integer⟩
    cases found : ofFloat argument with
    | notANumber => simp [isInteger, found] at integer
    | infinite negative => simp [isInteger, found] at integer
    | finite negative rank =>
        have finite := isFinite_iff.mpr ⟨_, _, found⟩
        obtain ⟨whole, value⟩ := (isInteger_iff found).mp integer
        rw [not_lt_zero_iff finite, value, Int.cast_nonneg_iff] at nonneg
        obtain ⟨number, rfl⟩ := Int.eq_ofNat_of_zero_le nonneg
        exact ⟨number, finite, value.trans (Int.cast_natCast number)⟩

/-- What is neither negative nor an integer is what is refused as
fractional. -/
theorem isFractional_iff {argument : Float} :
    IsFractional argument ↔
      ¬ argument < 0 ∧ isInteger argument = false := by
  cases found : ofFloat argument with
  | notANumber =>
      have missing := isNaN_iff.mpr found
      refine iff_of_true (.inl missing) ⟨not_lt_of_isNaN missing, ?_⟩
      rw [isInteger, found]
  | infinite negative =>
      have notInteger : isInteger argument = false := by
        rw [isInteger, found]
      cases negative with
      | false =>
          obtain rfl : argument = 1 / 0 := eq_of_ofFloat_infinite found
          exact iff_of_true (.inr (.inl rfl)) ⟨by decide, notInteger⟩
      | true =>
          obtain rfl : argument = -1 / 0 := eq_of_ofFloat_infinite found
          refine iff_of_false ?_ (fun both => both.1 (by decide))
          rintro (missing | positive | ⟨finite, -⟩)
          · revert missing
            decide
          · revert positive
            decide
          · revert finite
            decide
  | finite negative rank =>
      have finite := isFinite_iff.mpr ⟨_, _, found⟩
      have notInfinite : argument ≠ 1 / 0 := by
        rintro rfl
        revert finite
        decide
      rw [IsFractional, isNaN_of_isFinite finite, not_lt_zero_iff finite,
        le_iff_toRat_le isFinite_zero finite, toRat_zero,
        ← Bool.not_eq_true (isInteger argument), isInteger_iff found,
        not_exists]
      constructor
      · rintro (missing | positive | ⟨-, nonneg, fractional⟩)
        · cases missing
        · exact absurd positive notInfinite
        · exact ⟨nonneg, fractional⟩
      · rintro ⟨nonneg, fractional⟩
        exact .inr (.inr ⟨finite, nonneg, fractional⟩)

/-- Every float is negative, fractional or a natural number. -/
theorem negative_or_fractional_or_whole (argument : Float) :
    argument < 0 ∨ IsFractional argument ∨
      ∃ number, IsWhole argument number := by
  rw [isFractional_iff, exists_isWhole_iff]
  by_cases negative : argument < 0
  · exact .inl negative
  · cases isInteger argument with
    | false => exact .inr (.inl ⟨negative, rfl⟩)
    | true => exact .inr (.inr ⟨negative, rfl⟩)

/-! ## Results -/

section

variable {argument : Float}

theorem countedFactorial_of_negative (negative : argument < 0) :
    countedFactorial argument = (.error (.negativeArgument "!" argument), 0) :=
  if_pos negative

theorem countedFactorial_of_fractional (fractional : IsFractional argument) :
    countedFactorial argument =
      (.error (.fractionalArgument "!" argument), 0) := by
  obtain ⟨nonneg, notInteger⟩ := isFractional_iff.mp fractional
  rw [countedFactorial, if_neg nonneg, notInteger]
  rfl

variable {number : Nat} (whole : IsWhole argument number)

include whole

theorem wholePart_eq : wholePart argument = number := by
  obtain ⟨negative, rank, found⟩ := isFinite_iff.mp whole.finite
  have size := abs_toRat_of_ofFloat found
  rw [whole.value, abs_of_nonneg (Nat.cast_nonneg number),
    eq_div_iff cast_one_pos.ne', ← Nat.cast_mul, Nat.cast_inj] at size
  rw [wholePart, found]
  change magnitude rank / one = number
  rw [← size, Nat.mul_div_cancel _ (Nat.cast_pos.mp cast_one_pos)]

theorem countedFactorial_of_whole :
    countedFactorial argument =
      if 2 ^ 64 ≤ number then
        (.error (.overflow "!" argument), 0)
      else
        match countedProduct number 1 with
        | (some product, steps) => (.ok product, steps)
        | (none, steps) => (.error (.overflow "!" argument), steps) := by
  obtain ⟨nonneg, integer⟩ := exists_isWhole_iff.mp ⟨number, whole⟩
  rw [countedFactorial, if_neg nonneg, integer, wholePart_eq whole]
  rfl

theorem countedFactorial_of_large (large : 171 ≤ number) :
    ∃ steps ≤ 170,
      countedFactorial argument =
        (.error (.overflow "!" argument), steps) := by
  rw [countedFactorial_of_whole whole]
  by_cases huge : 2 ^ 64 ≤ number
  · exact ⟨0, Nat.zero_le _, if_pos huge⟩
  · obtain ⟨steps, few, infinite⟩ :=
      exists_countedProduct_of_large large (Nat.not_le.mp huge)
    rw [if_neg huge, infinite]
    exact ⟨steps, few, rfl⟩

theorem countedFactorial_of_small (small : number ≤ 170) :
    ∃ result, ∃ steps ≤ 169,
      countedFactorial argument = (.ok result, steps) ∧
        result.isFinite = true ∧ 1 ≤ result ∧
          Accumulates number 1 result := by
  obtain ⟨result, multiplied⟩ := exists_descendingProduct_of_small small
  have product := fst_countedProduct number 1
  have most := snd_countedProduct_le number 1
  rw [countedFactorial_of_whole whole, if_neg (by omega)]
  cases counted : countedProduct number 1 with
  | mk found steps =>
      rw [counted] at product most
      obtain rfl : found = some result := product.trans multiplied
      exact ⟨result, steps, by omega, rfl,
        factorial_accumulates small multiplied⟩

end

/-- A result is finite, and at least one. -/
theorem one_le_of_factorial {argument result : Float}
    (applied : factorial argument = .ok result) :
    result.isFinite = true ∧ 1 ≤ result := by
  rw [← fst_countedFactorial] at applied
  rcases negative_or_fractional_or_whole argument
    with negative | fractional | ⟨number, whole⟩
  · rw [countedFactorial_of_negative negative] at applied
    cases applied
  · rw [countedFactorial_of_fractional fractional] at applied
    cases applied
  · rcases Nat.lt_or_ge 170 number with large | small
    · obtain ⟨steps, -, same⟩ := countedFactorial_of_large whole large
      rw [same] at applied
      cases applied
    · obtain ⟨found, steps, -, same, finite, least, -⟩ :=
        countedFactorial_of_small whole small
      rw [same] at applied
      obtain rfl := Except.ok.inj applied
      exact ⟨finite, least⟩

/-- Only a negative number is refused as negative. -/
theorem lt_zero_of_factorial {argument other : Float} {name : String}
    (refused : factorial argument = .error (.negativeArgument name other)) :
    argument < 0 := by
  by_contra nonneg
  rw [factorial, if_neg nonneg] at refused
  split at refused
  · cases refused
  · split at refused
    · cases refused
    · split at refused <;> cases refused

/-- The factorial is refused as negative, as fractional or as too large
exactly where it should be, and is the rounded product everywhere else.  It
never multiplies more than 170 times. -/
theorem factorial_decided (argument : Float) :
    (factorial argument = .error (.negativeArgument "!" argument) ↔
        argument < 0) ∧
      (factorial argument = .error (.fractionalArgument "!" argument) ↔
        IsFractional argument) ∧
      (factorial argument = .error (.overflow "!" argument) ↔
        ∃ number, 171 ≤ number ∧ IsWhole argument number) ∧
      (argument < 0 ∨ IsFractional argument ∨
        (∃ number, 171 ≤ number ∧ IsWhole argument number) ∨
        ∃ number ≤ 170, IsWhole argument number ∧
          ∃ result, factorial argument = .ok result ∧
            result.isFinite = true ∧ 1 ≤ result ∧
              Accumulates number 1 result) ∧
      (countedFactorial argument).1 = factorial argument ∧
      (countedFactorial argument).2 ≤ 170 := by
  rw [← fst_countedFactorial]
  rcases negative_or_fractional_or_whole argument
    with negative | fractional | ⟨number, whole⟩
  · have notFractional : ¬ IsFractional argument := fun fractional =>
      (isFractional_iff.mp fractional).1 negative
    have notWhole : ¬ ∃ number, 171 ≤ number ∧ IsWhole argument number := by
      rintro ⟨number, -, whole⟩
      exact (exists_isWhole_iff.mp ⟨number, whole⟩).1 negative
    rw [countedFactorial_of_negative negative]
    simp [negative, notFractional, notWhole]
  · obtain ⟨nonneg, notInteger⟩ := isFractional_iff.mp fractional
    have notWhole : ¬ ∃ number, 171 ≤ number ∧ IsWhole argument number := by
      rintro ⟨number, -, whole⟩
      have integer := (exists_isWhole_iff.mp ⟨number, whole⟩).2
      rw [notInteger] at integer
      cases integer
    rw [countedFactorial_of_fractional fractional]
    simp [fractional, nonneg, notWhole]
  · obtain ⟨nonneg, integer⟩ := exists_isWhole_iff.mp ⟨number, whole⟩
    have notFractional : ¬ IsFractional argument := fun fractional =>
      absurd integer ((isFractional_iff.mp fractional).2 ▸ Bool.false_ne_true)
    rcases Nat.lt_or_ge 170 number with large | small
    · have isLarge : ∃ number, 171 ≤ number ∧ IsWhole argument number :=
        ⟨number, large, whole⟩
      obtain ⟨steps, few, same⟩ := countedFactorial_of_large whole large
      rw [same]
      simp [nonneg, notFractional, isLarge]
      omega
    · have notLarge : ¬ ∃ number, 171 ≤ number ∧ IsWhole argument number := by
        rintro ⟨other, large, otherWhole⟩
        have same := wholePart_eq whole ▸ wholePart_eq otherWhole
        omega
      obtain ⟨result, steps, few, same, accumulated⟩ :=
        countedFactorial_of_small whole small
      rw [same]
      simp only [reduceCtorEq, nonneg, notFractional, notLarge, iff_self,
        false_or, true_and]
      exact ⟨⟨number, small, whole, result, rfl, accumulated⟩, by omega⟩

/-- A huge number is given up after a few multiplications. -/
example :
    countedFactorial 1e19 = (.error (.overflow "!" 1e19), 17) := by
  decide +kernel

end Calculator

import Calculator.Proofs.Binary64.Value

/-!
# The remainder of two floats is a float

The remainder of two magnitudes is a whole count of the smaller of their two
spacings.  Where this is the spacing of the divisor, the remainder is less
than the divisor, and otherwise it is not more than the dividend; in both
cases the count fits into a significand.  So the remainder is a magnitude
itself, and nothing is rounded, however far apart dividend and divisor are.
-/

namespace Calculator.Binary64

theorem nearestRank_magnitude {rank : Nat} (finite : rank < infinityRank) :
    nearestRank (magnitude rank) 1 = rank := by
  apply nearestRank_eq_of_roundsTo Nat.one_pos _ finite
  rw [Nat.cast_one, div_one]
  exact roundsTo_magnitude rank

/-! ## The remainder of magnitudes -/

/-- Every magnitude is a multiple of the smaller spacings. -/
theorem two_pow_dvd_magnitude {rank spacing : Nat}
    (finer : spacing ≤ doublings rank) : 2 ^ spacing ∣ magnitude rank :=
  Dvd.dvd.mul_left (Nat.pow_dvd_pow 2 finer) _

/-- A multiple of a spacing that is not above a magnitude of this spacing is
a magnitude. -/
theorem exists_magnitude_eq_of_dvd {count rank : Nat}
    (multiple : 2 ^ doublings rank ∣ count)
    (less : count ≤ magnitude rank) :
    ∃ other, magnitude other = count := by
  obtain ⟨steps, rfl⟩ := multiple
  rw [magnitude, Nat.mul_comm,
    Nat.mul_le_mul_right_iff (Nat.two_pow_pos _)] at less
  obtain ⟨other, same⟩ :=
    exists_magnitude_eq (less.trans_lt (significand_lt rank))
      (doublings rank)
  exact ⟨other, by rw [same, Nat.mul_comm]⟩

theorem exists_magnitude_eq_mod (rank : Nat) {divisorRank : Nat}
    (divides : 0 < divisorRank) :
    ∃ other,
      magnitude other = magnitude rank % magnitude divisorRank := by
  have positive : 0 < magnitude divisorRank := magnitude_strictMono divides
  have multiple : ∀ {spacing : Nat}, spacing ≤ doublings rank →
      spacing ≤ doublings divisorRank →
        2 ^ spacing ∣ magnitude rank % magnitude divisorRank :=
    fun finer divisorFiner =>
      (Nat.dvd_mod_iff (two_pow_dvd_magnitude divisorFiner)).mpr
        (two_pow_dvd_magnitude finer)
  rcases Nat.le_total (doublings divisorRank) (doublings rank)
    with divisorFiner | finer
  · exact exists_magnitude_eq_of_dvd (multiple divisorFiner (Nat.le_refl _))
      (Nat.mod_lt _ positive).le
  · exact exists_magnitude_eq_of_dvd (multiple (Nat.le_refl _) finer)
      (Nat.mod_le _ _)

variable {dividend divisor : Float} {negative divisorNegative : Bool}
  {rank divisorRank : Nat}

/-- The remainder of finite floats has the sign of the dividend, and its
magnitude is the remainder of the magnitudes. -/
theorem ofFloat_remainder
    (found : ofFloat dividend = .finite negative rank)
    (divisorFound : ofFloat divisor = .finite divisorNegative divisorRank)
    (divides : 0 < divisorRank) :
    ∃ other,
      ofFloat (remainder dividend divisor) = .finite negative other ∧
        magnitude other = magnitude rank % magnitude divisorRank := by
  obtain ⟨other, same⟩ := exists_magnitude_eq_mod rank divides
  have finite : other < infinityRank := by
    refine lt_of_le_of_lt ?_ (lt_of_ofFloat found)
    rw [← magnitude_strictMono.le_iff_le, same]
    exact Nat.mod_le _ _
  refine ⟨other, ?_, same⟩
  rw [remainder, found, divisorFound]
  dsimp only
  rw [nearest, ← same, nearestRank_magnitude finite]
  exact ofFloat_signed_of_lt negative finite

/-! ## Quotients cut toward zero -/

/-- The integer part of a number, cut toward zero. -/
def towardZero (number : ℚ) : ℤ :=
  if 0 ≤ number then ⌊number⌋ else ⌈number⌉

theorem towardZero_neg (number : ℚ) :
    towardZero (-number) = -towardZero number := by
  rcases lt_trichotomy number 0 with negative | rfl | positive
  · rw [towardZero, towardZero, if_pos (by linarith),
      if_neg (not_le.mpr negative), Int.floor_neg]
  · simp [towardZero]
  · rw [towardZero, towardZero, if_neg (by linarith),
      if_pos positive.le, Int.ceil_neg]

theorem towardZero_div_natCast (number divisor : Nat) :
    towardZero (number / divisor) = (number / divisor : Nat) := by
  have nonneg : (0 : ℚ) ≤ number / divisor :=
    div_nonneg (Nat.cast_nonneg _) (Nat.cast_nonneg _)
  rw [towardZero, if_pos nonneg]
  exact Rat.floor_natCast_div_natCast number divisor

/-- What a quotient of natural numbers leaves, in parts. -/
theorem mod_div_eq (number divisor : Nat) (unit : ℚ) :
    ((number % divisor : Nat) : ℚ) / unit =
      number / unit -
        divisor / unit * (towardZero (number / divisor) : ℤ) := by
  have whole : (divisor * (number / divisor : Nat) +
      (number % divisor : Nat) : ℚ) = number := by
    exact_mod_cast Nat.div_add_mod number divisor
  rw [towardZero_div_natCast, Int.cast_natCast, ← whole]
  ring

/-- The value of a remainder. -/
theorem toRat_remainder
    (found : ofFloat dividend = .finite negative rank)
    (divisorFound : ofFloat divisor = .finite divisorNegative divisorRank)
    (divides : 0 < divisorRank) :
    toRat (remainder dividend divisor) =
      toRat dividend -
        toRat divisor * towardZero (toRat dividend / toRat divisor) := by
  obtain ⟨other, isFound, same⟩ :=
    ofFloat_remainder found divisorFound divides
  have parts := mod_div_eq (magnitude rank) (magnitude divisorRank) one
  rw [← same] at parts
  have quotient : (magnitude rank / one / (magnitude divisorRank / one) : ℚ) =
      magnitude rank / magnitude divisorRank :=
    div_div_div_cancel_right₀ cast_one_pos.ne' _ _
  rw [toRat_of_ofFloat isFound, toRat_of_ofFloat found,
    toRat_of_ofFloat divisorFound, parts, ← quotient]
  cases negative <;> cases divisorNegative <;>
    simp only [if_true, if_false, Bool.false_eq_true, neg_div, div_neg,
      neg_neg, towardZero_neg, Int.cast_neg] <;>
    ring

theorem abs_toRat_remainder_lt
    (found : ofFloat dividend = .finite negative rank)
    (divisorFound : ofFloat divisor = .finite divisorNegative divisorRank)
    (divides : 0 < divisorRank) :
    |toRat (remainder dividend divisor)| < |toRat divisor| := by
  obtain ⟨other, isFound, same⟩ :=
    ofFloat_remainder found divisorFound divides
  have less : magnitude other < magnitude divisorRank := by
    rw [same]
    exact Nat.mod_lt _ (magnitude_strictMono divides)
  rw [abs_toRat_of_ofFloat isFound, abs_toRat_of_ofFloat divisorFound]
  exact div_lt_div_of_pos_right (Nat.cast_lt.mpr less) cast_one_pos

end Calculator.Binary64

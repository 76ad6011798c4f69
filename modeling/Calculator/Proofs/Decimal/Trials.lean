import Calculator.Proofs.Decimal.Short

/-!
# The trials of a cut are enough

The digits of a float are searched with a limited number of trials: as many
digits after the point as there are bits, and nine lowerings of the last digit.
Neither limit is ever reached.  After as many digits as bits nothing is cut
off, and the bounds are not a single point.  Where the digits end, before or
after the point, one digit less was too few; so the bounds are narrower there
than ten units of the last digit, and it cannot be lowered ten times.

The limits therefore belong to the form of the definition only: the search
without them finds the same digits.
-/

namespace Calculator.Decimal

theorem lt_ten_pow_length_digitsOf (value : Nat) :
    value < 10 ^ (digitsOf value).length :=
  (Nat.length_toDigits_le_iff (by decide) Nat.length_toDigits_pos).mp
    (Nat.le_refl _)

namespace ScaledBounds

/-- The digits that are found with the given numbers of trials. -/
def cutWithin (bounds : ScaledBounds) (trials times : Nat) : Decimal :=
  let wholeDigits :=
    (digitsOf (bounds.upper / 2 ^ bounds.shift)).length
  match bounds.wholePlace? wholeDigits with
  | some place =>
      let unit := 10 ^ place * 2 ^ bounds.shift
      ⟨bounds.upper / unit -
          lowerings bounds.width bounds.distance unit times
            (bounds.upper % unit),
        place⟩
  | none =>
      let place := bounds.fractionPlace trials 1
      let upper := bounds.upper * 10 ^ place
      let unit := 2 ^ bounds.shift
      let distance :=
        if place < 9 then bounds.distance * 10 ^ place else 0
      ⟨upper / unit -
          lowerings (bounds.width * 10 ^ place) distance unit times
            (upper % unit),
        -place⟩

theorem cut_eq_cutWithin (bounds : ScaledBounds) :
    bounds.cut = bounds.cutWithin bounds.shift 9 :=
  rfl

/-! ## Lowering the last digit -/

/-- Where the bounds are too narrow for one more unit, more lowerings change
nothing. -/
theorem lowerings_eq_of_le (distance : Nat)
    {width unit enough times rest : Nat}
    (within : rest ≤ width) (narrow : width < rest + (enough + 1) * unit)
    (le : enough ≤ times) :
    lowerings width distance unit times rest =
      lowerings width distance unit enough rest := by
  induction enough generalizing times rest with
  | zero =>
      cases times with
      | zero => rfl
      | succ times =>
          rw [lowerings, lowerings, if_neg]
          rintro ⟨-, fits, -⟩
          omega
  | succ enough ih =>
      obtain ⟨times, rfl⟩ : ∃ fewer, times = fewer + 1 :=
        ⟨times - 1, by omega⟩
      simp only [lowerings]
      split
      · next lower =>
          rw [Nat.succ_mul] at narrow
          rw [@ih times (rest + unit) (by omega) (by omega) (by omega)]
      · rfl

/-! ## The place of the cut -/

/-- A place before the point is the first one at which the bounds are narrower
than ten units. -/
theorem width_lt_of_wholePlace? {bounds : ScaledBounds} {digits place : Nat}
    (narrow : bounds.width < 10 ^ digits * 2 ^ bounds.shift)
    (found : bounds.wholePlace? digits = some place) :
    bounds.width < 10 * (10 ^ place * 2 ^ bounds.shift) := by
  induction digits with
  | zero => cases found
  | succ digits ih =>
      rw [wholePlace?] at found
      split at found
      · next within =>
          obtain rfl := Option.some.inj found
          rwa [← Nat.mul_assoc, ← Nat.pow_succ']
      · next beyond =>
          refine ih ?_ found
          have rest := Nat.mod_lt bounds.upper
            (Nat.mul_pos (Nat.pow_pos (by decide : 0 < 10))
              (Nat.two_pow_pos bounds.shift) :
                0 < 10 ^ digits * 2 ^ bounds.shift)
          omega

/-- Where no place before the point is found, the bounds are too narrow at
each of them. -/
theorem lt_mod_of_wholePlace?_eq_none {bounds : ScaledBounds}
    {digits place : Nat} (missing : bounds.wholePlace? digits = none)
    (below : place < digits) :
    bounds.width < bounds.upper % (10 ^ place * 2 ^ bounds.shift) := by
  induction digits with
  | zero => cases below
  | succ digits ih =>
      rw [wholePlace?] at missing
      split at missing
      · cases missing
      · next beyond =>
          rcases Nat.lt_succ_iff_lt_or_eq.mp below with before | rfl
          · exact ih missing before
          · exact Nat.not_le.mp beyond

/-- A place after the point is the first one at which the bounds are narrower
than ten units. -/
theorem width_lt_fractionPlace (bounds : ScaledBounds)
    (trials place : Nat)
    (narrow : bounds.width * 10 ^ place < 10 * 2 ^ bounds.shift) :
    bounds.width * 10 ^ bounds.fractionPlace trials place <
      10 * 2 ^ bounds.shift := by
  induction trials generalizing place with
  | zero => exact narrow
  | succ trials ih =>
      rw [fractionPlace]
      split
      · exact narrow
      · next beyond =>
          refine ih (place + 1) ?_
          have rest := Nat.mod_lt (bounds.upper * 10 ^ place)
            (Nat.two_pow_pos bounds.shift)
          rw [Nat.pow_succ, ← Nat.mul_assoc]
          omega

theorem upper_lt_ten_pow_mul (bounds : ScaledBounds) :
    bounds.upper <
      10 ^ (digitsOf (bounds.upper / 2 ^ bounds.shift)).length *
        2 ^ bounds.shift :=
  (Nat.div_lt_iff_lt_mul (Nat.two_pow_pos bounds.shift)).mp
    (lt_ten_pow_length_digitsOf _)

/-- Where the digits end before the point, the bounds are narrower than ten
units of the last digit. -/
theorem width_lt_of_cut_whole {bounds : ScaledBounds} {place : Nat}
    (narrow : bounds.width ≤ bounds.upper)
    (found : bounds.wholePlace?
      (digitsOf (bounds.upper / 2 ^ bounds.shift)).length = some place) :
    bounds.width < 10 * (10 ^ place * 2 ^ bounds.shift) :=
  width_lt_of_wholePlace?
    (narrow.trans_lt bounds.upper_lt_ten_pow_mul) found

/-- So they are where the digits end after the point. -/
theorem width_lt_of_cut_fraction {bounds : ScaledBounds} (trials : Nat)
    (missing : bounds.wholePlace?
      (digitsOf (bounds.upper / 2 ^ bounds.shift)).length = none) :
    bounds.width * 10 ^ bounds.fractionPlace trials 1 <
      10 * 2 ^ bounds.shift := by
  have start := lt_mod_of_wholePlace?_eq_none missing
    Nat.length_toDigits_pos
  have rest := Nat.mod_lt bounds.upper (Nat.two_pow_pos bounds.shift)
  rw [Nat.pow_zero, Nat.one_mul] at start
  exact bounds.width_lt_fractionPlace trials 1 (by omega)

/-- At the latest, the search after the point ends where nothing is cut
off. -/
theorem fractionPlace_eq_of_le {bounds : ScaledBounds}
    (positive : 0 < bounds.width) {enough trials place : Nat}
    (reached : bounds.shift ≤ enough + place) (le : enough ≤ trials) :
    bounds.fractionPlace trials place =
      bounds.fractionPlace enough place := by
  induction enough generalizing trials place with
  | zero =>
      cases trials with
      | zero => rfl
      | succ trials =>
          rw [Nat.zero_add] at reached
          have wide : bounds.upper * 10 ^ place % 2 ^ bounds.shift <
              bounds.width * 10 ^ place := by
            rw [mul_ten_pow_mod_eq_zero bounds.upper reached]
            exact Nat.mul_pos positive (Nat.pow_pos (by decide))
          simp only [fractionPlace, if_pos wide]
  | succ enough ih =>
      obtain ⟨trials, rfl⟩ : ∃ fewer, trials = fewer + 1 :=
        ⟨trials - 1, by omega⟩
      simp only [fractionPlace]
      split
      · rfl
      · exact ih (by omega) (by omega)

/-! ## The digits -/

/-- More trials find the same digits. -/
theorem cutWithin_eq_cut {bounds : ScaledBounds}
    (narrow : bounds.width ≤ bounds.upper) (positive : 0 < bounds.width)
    {trials times : Nat} (enoughTrials : bounds.shift ≤ trials)
    (enoughTimes : 9 ≤ times) :
    bounds.cutWithin trials times = bounds.cut := by
  rw [cut_eq_cutWithin]
  simp only [cutWithin]
  cases found : bounds.wholePlace?
      (digitsOf (bounds.upper / 2 ^ bounds.shift)).length with
  | some place =>
      have ten := width_lt_of_cut_whole narrow found
      simp only
      rw [lowerings_eq_of_le _ (mod_le_of_wholePlace? found)
        (Nat.lt_add_left _ ten) enoughTimes]
  | none =>
      have ten := width_lt_of_cut_fraction bounds.shift found
      have within := bounds.mod_le_fractionPlace
        (Nat.le_add_right bounds.shift 1)
      simp only
      rw [fractionPlace_eq_of_le positive (Nat.le_add_right _ 1)
        enoughTrials, lowerings_eq_of_le _ within (by omega) enoughTimes]

end ScaledBounds

/-- The limits do not matter to the digits of any float. -/
theorem cutWithin_ofRank (rank : Nat) (power : Int) {trials times : Nat}
    (enoughTrials :
      (ScaledBounds.ofRank rank (.powerOfTen power)).shift ≤ trials)
    (enoughTimes : 9 ≤ times) :
    (ScaledBounds.ofRank rank (.powerOfTen power)).cutWithin trials times =
      (ScaledBounds.ofRank rank (.powerOfTen power)).cut := by
  have apart := scaledLower_add_two_lt rank power
  refine ScaledBounds.cutWithin_eq_cut (width_ofRank_le rank power) ?_
    enoughTrials enoughTimes
  rw [ofRank_eq]
  simp only
  omega

end Calculator.Decimal

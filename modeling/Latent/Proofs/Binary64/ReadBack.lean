import Latent.Numeral.Reading
import Latent.Proofs.Binary64.Nearest

/-!
# The shortest digits read back

A decimal that `readsBack` as a count of units is rounded to that count, so its text names the number.
On the grid of seventeen significant digits one of the two neighbours of a number always reads back,
because a step of that grid is shorter than the distance between the neighbours of the number.  So
`shortest` finds a decimal, and it reads back.
-/

namespace Latent

namespace Binary64

/-! ## Decimals as quotients of units -/

/-- A decimal as a quotient of units. -/
def unitsOf (s : Scientific) : Nat × Nat :=
  if 0 ≤ s.exponent then (s.digits * 10 ^ s.exponent.toNat * unitsPerOne, 1)
  else (s.digits * unitsPerOne, 10 ^ (-s.exponent).toNat)

/-- Without places behind the point, the units of a decimal are a whole number. -/
theorem unitsOf_of_nonneg {digits : Nat} {exponent : Int} (h : 0 ≤ exponent) :
    unitsOf ⟨digits, exponent⟩ = (digits * 10 ^ exponent.toNat * unitsPerOne, 1) := if_pos h

/-- Otherwise they are a fraction over a power of ten. -/
theorem unitsOf_of_neg {digits : Nat} {exponent : Int} (h : exponent < 0) :
    unitsOf ⟨digits, exponent⟩ = (digits * unitsPerOne, 10 ^ (-exponent).toNat) :=
  if_neg (by simpa using h)

theorem unitsOf_den_pos (s : Scientific) : 0 < (unitsOf s).2 := by
  unfold unitsOf
  split
  · exact Nat.one_pos
  · exact Nat.pow_pos (by decide)

/-- A decimal that is cut off as too large is far beyond all numbers. -/
theorem three_unitLimit_le {digits : Nat} {exponent : Int} (hdigits : 0 < digits)
    (hexponent : 310 < exponent) :
    3 * unitLimit ≤ 2 * (digits * 10 ^ exponent.toNat * unitsPerOne) := by
  have hlarge : 10 ^ 311 * unitsPerOne ≤ digits * 10 ^ exponent.toNat * unitsPerOne := by
    apply Nat.mul_le_mul_right
    calc 10 ^ 311 ≤ 10 ^ exponent.toNat := Nat.pow_le_pow_right (by decide) (by omega)
      _ ≤ digits * 10 ^ exponent.toNat := Nat.le_mul_of_pos_left _ hdigits
  have hbound : 3 * unitLimit ≤ 2 * (10 ^ 311 * unitsPerOne) := by decide +kernel
  exact hbound.trans (Nat.mul_le_mul_left 2 hlarge)

/-- A decimal that is cut off as too small is less than half a unit. -/
theorem two_mul_units_lt {digits : Nat} {exponent : Int}
    (hexponent : exponent + digits.log2 + 1 < -324) :
    2 * (digits * unitsPerOne) < 10 ^ (-exponent).toNat := by
  have hdigits : digits < 10 ^ (digits.log2 + 1) :=
    Nat.lt_log2_self.trans_le (Nat.pow_le_pow_left (by decide) _)
  have hone : 2 * unitsPerOne ≤ 10 ^ 325 := by decide +kernel
  calc 2 * (digits * unitsPerOne) = digits * (2 * unitsPerOne) := Nat.mul_left_comm _ _ _
    _ ≤ digits * 10 ^ 325 := Nat.mul_le_mul_left _ hone
    _ < 10 ^ (digits.log2 + 1) * 10 ^ 325 :=
      Nat.mul_lt_mul_of_pos_right hdigits (Nat.pow_pos (by decide))
    _ = 10 ^ (digits.log2 + 1 + 325) := (Nat.pow_add _ _ _).symm
    _ ≤ 10 ^ (-exponent).toNat := Nat.pow_le_pow_right (by decide) (by omega)

/-- A zero at the end may stand in the exponent: the quotient is only expanded by it. -/
theorem exists_unitsOf_mul_ten (digits : Nat) (exponent : Int) : ∃ k, 0 < k ∧
    unitsOf ⟨digits * 10, exponent⟩
      = (k * (unitsOf ⟨digits, exponent + 1⟩).1, k * (unitsOf ⟨digits, exponent + 1⟩).2) := by
  rcases lt_or_ge exponent 0 with hneg | hnonneg
  · refine ⟨10, by decide, ?_⟩
    rw [unitsOf_of_neg hneg]
    rcases lt_or_ge (exponent + 1) 0 with hneg' | hnonneg'
    · have hpow : 10 ^ (-exponent).toNat = 10 * 10 ^ (-(exponent + 1)).toNat := by
        rw [← Nat.pow_succ']
        congr 1
        omega
      rw [unitsOf_of_neg hneg', hpow, Nat.mul_comm digits, Nat.mul_assoc]
    · -- only here the point comes to stand behind all digits
      have hone : exponent = -1 := by omega
      subst hone
      rw [unitsOf_of_nonneg (by decide), Nat.mul_comm digits, Nat.mul_assoc]
      show (10 * (digits * unitsPerOne), 10) = (10 * (digits * 1 * unitsPerOne), 10 * 1)
      rw [Nat.mul_one digits]
  · refine ⟨1, by decide, ?_⟩
    have hpow : 10 ^ (exponent + 1).toNat = 10 * 10 ^ exponent.toNat := by
      rw [← Nat.pow_succ']
      congr 1
      omega
    rw [unitsOf_of_nonneg hnonneg, unitsOf_of_nonneg (by omega), hpow, Nat.mul_assoc digits,
      Nat.one_mul, Nat.one_mul]

theorem doubledUnits_eq (s : Scientific) :
    doubledUnits s = (2 * (unitsOf s).1, (unitsOf s).2) := by
  unfold doubledUnits unitsOf
  split
  · exact Prod.ext (Nat.mul_left_comm _ 2 unitsPerOne) rfl
  · exact Prod.ext (Nat.mul_left_comm _ 2 unitsPerOne) rfl

/-- A decimal reads back when it is near to the number. -/
theorem readsBack_iff {units : Nat} {s : Scientific} :
    readsBack units s = true ↔ Near units (unitsOf s).1 (unitsOf s).2 := by
  unfold readsBack
  rw [doubledInterval_eq, doubledUnits_eq]
  dsimp only
  constructor
  · intro h
    split at h
    · rename_i heven
      rw [Bool.and_eq_true, decide_eq_true_eq, decide_eq_true_eq] at h
      exact ⟨h.1, h.2, Or.inl heven⟩
    · rw [Bool.and_eq_true, decide_eq_true_eq, decide_eq_true_eq] at h
      exact ⟨h.1.le, h.2.le, Or.inr h⟩
  · intro h
    split
    · rw [Bool.and_eq_true, decide_eq_true_eq, decide_eq_true_eq]
      exact ⟨h.low, h.high⟩
    · rename_i hodd
      rw [Bool.and_eq_true, decide_eq_true_eq, decide_eq_true_eq]
      exact h.tie.resolve_left hodd

/-! ## Reading a decimal near to a number -/

section Near

variable {units : Nat} (fits : Fits units) (hpos : 0 < units)

include fits hpos

/-- The interval of a number does not reach down to half of the number. -/
theorem le_low : units ≤ 2 * units - gapBelow units := by
  have hbelow := gapBelow_le units
  have hgap := gap_le fits hpos
  omega

/-- No decimal near to a number is zero. -/
theorem digits_pos {s : Scientific} (h : Near units (unitsOf s).1 (unitsOf s).2) : 0 < s.digits := by
  by_contra hzero
  have hnum : (unitsOf s).1 = 0 := by
    unfold unitsOf
    rw [Nat.eq_zero_of_not_pos hzero]
    split <;> simp
  have hlow := h.low
  rw [hnum, Nat.mul_zero] at hlow
  have hmul : 0 < (2 * units - gapBelow units) * (unitsOf s).2 :=
    Nat.mul_pos (hpos.trans_le (le_low fits hpos)) (unitsOf_den_pos s)
  omega

/-- No decimal near to a number is cut off as too large. -/
theorem exponent_le {s : Scientific} (h : Near units (unitsOf s).1 (unitsOf s).2) :
    s.exponent ≤ 310 := by
  by_contra hgt
  have hdigits := digits_pos fits hpos h
  have hhigh := h.high
  have hgap := gap_le fits hpos
  have hlimit : units < unitLimit := fits.1
  obtain ⟨digits, exponent⟩ := s
  dsimp only at hgt hdigits
  rw [unitsOf_of_nonneg (by omega)] at hhigh
  dsimp only at hhigh
  have hlarge := three_unitLimit_le hdigits (not_le.1 hgt)
  generalize digits * 10 ^ exponent.toNat * unitsPerOne = num at *
  generalize unitLimit = limit at *
  omega

/-- No decimal near to a number is cut off as too small. -/
theorem le_exponent {s : Scientific} (h : Near units (unitsOf s).1 (unitsOf s).2) :
    -324 ≤ s.exponent + s.digits.log2 + 1 := by
  by_contra hlt
  have hlow := h.low
  obtain ⟨digits, exponent⟩ := s
  dsimp only at hlt
  rw [unitsOf_of_neg (by omega)] at hlow
  dsimp only at hlow
  have hle : 10 ^ (-exponent).toNat
      ≤ (2 * units - gapBelow units) * 10 ^ (-exponent).toNat :=
    Nat.le_mul_of_pos_left _ (hpos.trans_le (le_low fits hpos))
  have hsmall := two_mul_units_lt (not_le.1 hlt)
  omega

/-- **A decimal that reads back is read as the number.** -/
theorem ofDecimal_of_readsBack {s : Scientific} (h : readsBack units s = true) (negative : Bool) :
    ofDecimal negative s = finite negative units fits := by
  have hnear := readsBack_iff.1 h
  have hdigits := digits_pos fits hpos hnear
  have hexponent := exponent_le fits hpos hnear
  have hexponent' := le_exponent fits hpos hnear
  have hquotient := ofQuotient_of_near fits hpos (unitsOf_den_pos s) hnear negative
  unfold unitsOf at hquotient
  unfold ofDecimal ofScientific
  rw [if_neg hdigits.ne', if_neg (by omega), if_neg (by omega)]
  split
  · rename_i hnonneg
    rw [if_pos hnonneg] at hquotient
    exact hquotient
  · rename_i hneg
    rw [if_neg hneg] at hquotient
    exact hquotient

end Near

/-! ## Zeros at the end -/

theorem Near.mul_iff {units num den k : Nat} (hk : 0 < k) :
    Near units (k * num) (k * den) ↔ Near units num den := by
  have hle (a b c d : Nat) : a * (k * b) ≤ c * (k * d) ↔ a * b ≤ c * d := by
    rw [Nat.mul_left_comm a, Nat.mul_left_comm c]
    exact Nat.mul_le_mul_left_iff hk
  have hlt (a b c d : Nat) : a * (k * b) < c * (k * d) ↔ a * b < c * d := by
    rw [Nat.mul_left_comm a, Nat.mul_left_comm c]
    exact Nat.mul_lt_mul_left hk
  constructor
  · rintro ⟨hlow, hhigh, htie⟩
    rw [hlt, hlt] at htie
    exact ⟨(hle _ _ _ _).1 hlow, (hle _ _ _ _).1 hhigh, htie⟩
  · rintro ⟨hlow, hhigh, htie⟩
    refine ⟨(hle _ _ _ _).2 hlow, (hle _ _ _ _).2 hhigh, ?_⟩
    rwa [hlt, hlt]

/-- A zero at the end may stand in the exponent. -/
theorem readsBack_mul_ten (units digits : Nat) (exponent : Int) :
    readsBack units ⟨digits * 10, exponent⟩ = readsBack units ⟨digits, exponent + 1⟩ := by
  obtain ⟨k, hk, hunits⟩ := exists_unitsOf_mul_ten digits exponent
  rw [Bool.eq_iff_iff, readsBack_iff, readsBack_iff, hunits]
  exact Near.mul_iff hk

/-- Any number of zeros may. -/
theorem readsBack_pow_ten_mul (units digits k : Nat) (exponent : Int) :
    readsBack units ⟨10 ^ k * digits, exponent⟩ = readsBack units ⟨digits, exponent + k⟩ := by
  induction k generalizing exponent with
  | zero => rw [Nat.pow_zero, Nat.one_mul, Int.natCast_zero, Int.add_zero]
  | succ k ih =>
      rw [Nat.pow_succ, Nat.mul_right_comm, readsBack_mul_ten, ih, Int.add_assoc, Int.natCast_add,
        Int.add_comm 1, Int.natCast_one]

/-- Zeros at the end do not change what a decimal is read as. -/
theorem readsBack_stripZeros (units fuel : Nat) (s : Scientific) :
    readsBack units (stripZeros fuel s) = readsBack units s := by
  induction fuel generalizing s with
  | zero => rfl
  | succ fuel ih =>
      rw [stripZeros]
      split
      · rename_i h
        rw [ih, ← readsBack_mul_ten, Nat.div_mul_cancel (Nat.dvd_of_mod_eq_zero h.2)]
      · rfl

/-! ## Seventeen digits suffice -/

/-- The interval of a number is longer than any step of the grid of seventeen digits. -/
theorem two_mul_lt {units : Nat} (hpos : 0 < units) :
    2 * units < (gap units + gapBelow units) * 10 ^ 16 := by
  have hlt : units < 2 ^ 53 * gap units := by
    rw [gap_eq, ← Nat.pow_add]
    exact Nat.lt_log2_self.trans_le (Nat.pow_le_pow_right (by decide) (by omega))
  have hgap := gap_pos units
  unfold gapBelow
  split
  · rename_i h
    obtain ⟨heq, hone⟩ := h
    have hlog : 52 < units.log2 := by
      by_contra hle
      rw [gap_of_log2_le (by omega)] at hone
      omega
    have hunits : units = 2 ^ 52 * gap units := by
      rw [gap_eq, ← Nat.pow_add, Nat.add_sub_cancel' hlog.le]
      exact heq
    have hhalf : 2 * (gap units / 2) = gap units := by
      refine Nat.mul_div_cancel' ?_
      rw [gap_eq]
      exact dvd_pow_self 2 (by omega)
    omega
  · omega

/-- Dividing by the unit of the leading digit leaves at least one. -/
theorem exists_leadingExponent {units : Nat} (hpos : 0 < units) :
    ∃ j : Nat, leadingExponent units = (j : Int) - 324 ∧ 10 ^ j * unitsPerOne ≤ units * 10 ^ 324 := by
  have hone : unitsPerOne ≤ 10 ^ 324 := by decide +kernel
  have hquotient : 0 < units * 10 ^ 324 / unitsPerOne :=
    Nat.div_pos (hone.trans (Nat.le_mul_of_pos_left _ hpos)) unitsPerOne_pos
  have hdef : leadingExponent units
      = ((Nat.toDigits 10 (units * 10 ^ 324 / unitsPerOne)).length : Int) - 325 := rfl
  have hle : ∀ j, 10 ^ j ≤ units * 10 ^ 324 / unitsPerOne →
      10 ^ j * unitsPerOne ≤ units * 10 ^ 324 := fun j hj =>
    (Nat.le_div_iff_mul_le unitsPerOne_pos).1 hj
  rw [hdef]
  generalize units * 10 ^ 324 / unitsPerOne = n at *
  have hlength : 0 < (Nat.toDigits 10 n).length := Nat.length_toDigits_pos
  refine ⟨(Nat.toDigits 10 n).length - 1, by omega, hle _ ?_⟩
  rcases Nat.eq_zero_or_pos ((Nat.toDigits 10 n).length - 1) with hzero | hmore
  · rw [hzero]
    exact hquotient
  · by_contra hlt
    have := (Nat.length_toDigits_le_iff (by decide) hmore).2 (Nat.lt_of_not_le hlt)
    omega

/-- A decimal of a grid, and the number, on one scale. -/
theorem exists_onGrid (units : Nat) (exponent : Int) : ∃ den step, 0 < den ∧ 0 < step ∧
    onGrid units exponent = (units * den, step) ∧
      ∀ count, unitsOf ⟨count, exponent⟩ = (count * step, den) := by
  have hpow (k : Nat) : 0 < 10 ^ k := Nat.pow_pos (by decide)
  rcases lt_or_ge exponent 0 with hneg | hnonneg
  · refine ⟨10 ^ (-exponent).toNat, unitsPerOne, hpow _, unitsPerOne_pos, ?_, fun count => ?_⟩
    · exact if_neg (by simpa using hneg)
    · exact unitsOf_of_neg hneg
  · refine ⟨1, unitsPerOne * 10 ^ exponent.toNat, Nat.one_pos,
      Nat.mul_pos unitsPerOne_pos (hpow _), ?_, fun count => ?_⟩
    · rw [Nat.mul_one]
      exact if_pos hnonneg
    · rw [unitsOf_of_nonneg hnonneg, Nat.mul_assoc, Nat.mul_comm unitsPerOne]

/-- What is taken on a grid reads back. -/
theorem readsBack_of_onStep {tie : Tie} {units : Nat} {exponent : Int} {s : Scientific}
    (h : onStep tie units exponent = some s) : readsBack units s = true := by
  have hboth (upper : Bool) {s t : Scientific} (hs : readsBack units s = true)
      (ht : readsBack units t = true) : readsBack units (if upper then s else t) = true := by
    cases upper
    · exact ht
    · exact hs
  unfold onStep at h
  dsimp only at h
  split at h
  · rename_i hlower hupper
    cases h
    exact hboth _ hupper hlower
  · rename_i hlower _
    cases h
    exact hlower
  · rename_i _ hupper
    cases h
    exact hupper
  · cases h

/-- One of the two neighbours of a number on a grid with short steps lies inside its interval. -/
theorem inside_of_short_step {units den step : Nat} (fits : Fits units) (hpos : 0 < units)
    (hden : 0 < den) (hstepPos : 0 < step) (hstep : step * 10 ^ 16 ≤ units * den) :
    ∃ count ∈ [units * den / step, units * den / step + 1],
      (2 * units - gapBelow units) * den < 2 * (count * step) ∧
        2 * (count * step) < (2 * units + gap units) * den := by
  have hfloor : units * den / step * step ≤ units * den := Nat.div_mul_le_self _ _
  have hceil : units * den < units * den / step * step + step := Nat.lt_div_mul_add hstepPos
  have hshort : 2 * (units * den) < (gap units * den + gapBelow units * den) * 10 ^ 16 := by
    have hmul := Nat.mul_lt_mul_of_pos_right (two_mul_lt hpos) hden
    rwa [Nat.mul_assoc, Nat.mul_right_comm, Nat.add_mul (gap units)] at hmul
  have hbelow : gapBelow units * den ≤ 2 * (units * den) := by
    rw [← Nat.mul_assoc]
    apply Nat.mul_le_mul_right
    have hle := gapBelow_le units
    have hgap := gap_le fits hpos
    omega
  have hgapDen : 0 < gap units * den := Nat.mul_pos (gap_pos units) hden
  -- both outside: the interval would be no longer than the step
  by_contra hnone
  have hnot (count : Nat) (hcount : count ∈ [units * den / step, units * den / step + 1]) :
      ¬ ((2 * units - gapBelow units) * den < 2 * (count * step) ∧
        2 * (count * step) < (2 * units + gap units) * den) :=
    fun h => hnone ⟨count, hcount, h⟩
  have hlower := hnot (units * den / step) (by simp)
  have hupper := hnot (units * den / step + 1) (by simp)
  rw [Nat.add_mul (units * den / step), Nat.one_mul] at hupper
  rw [Nat.sub_mul, Nat.add_mul, Nat.mul_assoc] at hlower hupper
  generalize units * den / step * step = floor at *
  generalize units * den = num at *
  generalize gap units * den = above at *
  generalize gapBelow units * den = below at *
  omega

/-- On a grid with short steps one of the two neighbours of a number reads back. -/
theorem onStep_ne_none {tie : Tie} {units : Nat} {exponent : Int} (fits : Fits units)
    (hpos : 0 < units)
    (hstep : (onGrid units exponent).2 * 10 ^ 16 ≤ (onGrid units exponent).1) :
    onStep tie units exponent ≠ none := by
  obtain ⟨den, step, hden, hstepPos, hgrid, hunitsOf⟩ := exists_onGrid units exponent
  rw [hgrid] at hstep
  -- with short steps a neighbour lies strictly inside, so the tie does not matter
  obtain ⟨count, hcount, hlow, hhigh⟩ := inside_of_short_step fits hpos hden hstepPos hstep
  have hread : readsBack units ⟨count, exponent⟩ = true := by
    refine readsBack_iff.2 ?_
    rw [hunitsOf]
    exact ⟨hlow.le, hhigh.le, Or.inr ⟨hlow, hhigh⟩⟩
  intro hnone
  unfold onStep at hnone
  rw [hgrid] at hnone
  dsimp only at hnone
  split at hnone
  · cases hnone
  · cases hnone
  · cases hnone
  · rename_i hlower hupper
    simp only [List.mem_cons, List.not_mem_nil, or_false] at hcount
    rcases hcount with rfl | rfl
    · rw [hread] at hlower
      cases hlower
    · rw [hread] at hupper
      cases hupper

section

variable {units j : Nat} {exponent : Int} (hlead : 10 ^ j * unitsPerOne ≤ units * 10 ^ 324)
  (hexponent : exponent = j - 340)

include hlead hexponent

/-- Behind the point, the grid of an exponent far enough below the leading digit has short steps. -/
theorem onGrid_le_of_neg (hneg : exponent < 0) :
    (onGrid units exponent).2 * 10 ^ 16 ≤ (onGrid units exponent).1 := by
  have hgrid : onGrid units exponent = (units * 10 ^ (-exponent).toNat, unitsPerOne) :=
    if_neg (by simpa using hneg)
  have hscale : 10 ^ (-exponent).toNat * 10 ^ j = 10 ^ 16 * 10 ^ 324 := by
    rw [← Nat.pow_add, ← Nat.pow_add]
    congr 1
    omega
  rw [hgrid]
  dsimp only
  -- both sides are taken times `10 ^ 324`, which clears the exponent of the leading digit
  apply Nat.le_of_mul_le_mul_right (c := 10 ^ 324) _ (Nat.pow_pos (by decide))
  generalize 10 ^ (-exponent).toNat = scale at *
  generalize 10 ^ 324 = bound at *
  calc unitsPerOne * 10 ^ 16 * bound = scale * (10 ^ j * unitsPerOne) := by
        rw [Nat.mul_assoc, ← hscale, Nat.mul_comm, Nat.mul_assoc]
    _ ≤ scale * (units * bound) := Nat.mul_le_mul_left scale hlead
    _ = units * scale * bound := by rw [← Nat.mul_assoc, Nat.mul_comm units]

/-- So has it before the point. -/
theorem onGrid_le_of_nonneg (hnonneg : 0 ≤ exponent) :
    (onGrid units exponent).2 * 10 ^ 16 ≤ (onGrid units exponent).1 := by
  have hgrid : onGrid units exponent = (units, unitsPerOne * 10 ^ exponent.toNat) := if_pos hnonneg
  have hscale : 10 ^ j = 10 ^ exponent.toNat * (10 ^ 16 * 10 ^ 324) := by
    rw [← Nat.pow_add, ← Nat.pow_add]
    congr 1
    omega
  rw [hgrid]
  dsimp only
  apply Nat.le_of_mul_le_mul_right (c := 10 ^ 324) _ (Nat.pow_pos (by decide))
  generalize 10 ^ exponent.toNat = scale at *
  generalize 10 ^ 324 = bound at *
  calc unitsPerOne * scale * 10 ^ 16 * bound = 10 ^ j * unitsPerOne := by
        rw [hscale, Nat.mul_assoc, Nat.mul_assoc, Nat.mul_comm]
    _ ≤ units * bound := hlead

end

/-- The grid of the seventeenth digit has short steps. -/
theorem onGrid_le {units : Nat} (hpos : 0 < units) :
    (onGrid units (leadingExponent units - 16)).2 * 10 ^ 16
      ≤ (onGrid units (leadingExponent units - 16)).1 := by
  obtain ⟨j, hexponent, hlead⟩ := exists_leadingExponent hpos
  have hexponent : leadingExponent units - 16 = j - 340 := by omega
  rcases lt_or_ge (leadingExponent units - 16) 0 with hneg | hnonneg
  · exact onGrid_le_of_neg hlead hexponent hneg
  · exact onGrid_le_of_nonneg hlead hexponent hnonneg

/-- **The shortest decimal reads back.** -/
theorem readsBack_shortest (tie : Tie) {units : Nat} (fits : Fits units) (hpos : 0 < units) :
    readsBack units (shortest tie units) = true := by
  unfold shortest
  dsimp only
  rw [readsBack_stripZeros]
  cases hfound : (List.range 17).findSome? fun n : Nat =>
      onStep tie units (leadingExponent units - n) with
  | none =>
      have hnone := List.findSome?_eq_none_iff.1 hfound 16 (by decide)
      exact absurd hnone (onStep_ne_none fits hpos (onGrid_le hpos))
  | some s =>
      obtain ⟨n, _, hs⟩ := List.exists_of_findSome?_eq_some hfound
      exact readsBack_of_onStep hs

/-! ## Whole numbers -/

/-- A whole decimal is read as the number of so many times `unitsPerOne`. -/
theorem ofDecimal_whole {units n : Nat} (fits : Fits units) (hunits : units = n * unitsPerOne)
    (negative : Bool) : ofDecimal negative ⟨n, 0⟩ = finite negative units fits := by
  unfold ofDecimal ofScientific
  dsimp only
  by_cases hzero : n = 0
  · rw [if_pos hzero]
    rw [hzero, Nat.zero_mul] at hunits
    exact finite_congr hunits.symm _ _
  · rw [if_neg hzero, if_neg (by decide), if_neg (by omega), if_pos le_rfl]
    have hone : n * Nat.pow 10 (Int.toNat 0) * unitsPerOne = units * 1 := by
      rw [hunits, Nat.mul_one]
      show n * 1 * unitsPerOne = _
      rw [Nat.mul_one]
    rw [hone, ofQuotient_of_fits negative Nat.one_pos fits]

/-- Only decimals with places behind the point read back as a number that is not whole: a whole number
as near as that would be the number itself. -/
theorem exponent_neg {units : Nat} (fits : Fits units) (hwhole : units % unitsPerOne ≠ 0)
    {s : Scientific} (h : readsBack units s = true) : s.exponent < 0 := by
  by_contra hnonneg
  obtain ⟨digits, exponent⟩ := s
  have hnear := readsBack_iff.1 h
  rw [unitsOf_of_nonneg (by simpa using hnonneg)] at hnear
  have hlow := hnear.low
  have hhigh := hnear.high
  dsimp only at hlow hhigh
  have hbelow := gapBelow_le units
  have hgap := gap_pos units
  -- the gap divides both numbers, so they are equal or at least a gap apart
  have hgapOne : gap units ∣ unitsPerOne := by
    rw [gap_eq, unitsPerOne_eq]
    apply Nat.pow_dvd_pow
    by_contra hlt
    have hdvd : unitsPerOne ∣ gap units := by
      rw [gap_eq, unitsPerOne_eq]
      exact Nat.pow_dvd_pow 2 (by omega)
    exact hwhole (Nat.mod_eq_zero_of_dvd (hdvd.trans fits.gap_dvd))
  have hgapNum : gap units ∣ digits * 10 ^ exponent.toNat * unitsPerOne := hgapOne.mul_left _
  have hmod : digits * 10 ^ exponent.toNat * unitsPerOne % unitsPerOne = 0 := Nat.mul_mod_left _ _
  generalize digits * 10 ^ exponent.toNat * unitsPerOne = num at *
  rcases Nat.lt_trichotomy units num with hlt | heq | hgt
  · have hle := Nat.le_of_dvd (by omega) (Nat.dvd_sub hgapNum fits.gap_dvd)
    omega
  · rw [heq] at hwhole
    exact hwhole hmod
  · have hle := Nat.le_of_dvd (by omega) (Nat.dvd_sub fits.gap_dvd hgapNum)
    omega

end Binary64

end Latent

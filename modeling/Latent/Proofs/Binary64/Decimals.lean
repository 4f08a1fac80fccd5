import Latent.Decimal
import Latent.Proofs.Binary64.ReadBack

/-!
# Decimals of one value

Reading a decimal as a binary64 number decides extreme exponents without computing a power.  The
shortcuts change nothing: the number is always the rounded quotient of units (`ofDecimal_eq_ofQuotient`),
so zeros at the end of the digits may stand in the exponent.  Hence decimals of one value are nearest to
one number, whatever their scales.
-/

namespace Latent

namespace Binary64

/-! ## Rounding quotients -/

/-- A fraction is rounded as it is in any other terms. -/
theorem roundHalfEven_mul_left {k : Nat} (hk : 0 < k) (num den : Nat) :
    roundHalfEven (k * num) (k * den) = roundHalfEven num den := by
  have hlt : 2 * (k * (num % den)) < k * den ↔ 2 * (num % den) < den := by
    rw [Nat.mul_left_comm]
    exact Nat.mul_lt_mul_left hk
  have heq : 2 * (k * (num % den)) = k * den ↔ 2 * (num % den) = den := by
    rw [Nat.mul_left_comm]
    exact Nat.mul_right_inj hk.ne'
  unfold roundHalfEven
  rw [Nat.mul_div_mul_left _ _ hk, Nat.mul_mod_mul_left]
  simp only [hlt, heq]

/-- An expanded quotient is rounded to the same number. -/
theorem ofQuotient_mul_left {k : Nat} (hk : 0 < k) (negative : Bool) (num den : Nat) :
    ofQuotient negative (k * num) (k * den) = ofQuotient negative num den := by
  unfold ofQuotient
  rw [Nat.mul_div_mul_left _ _ hk]
  dsimp only
  rw [Nat.mul_assoc, roundHalfEven_mul_left hk]

/-- Less than half a unit is rounded to zero. -/
theorem ofQuotient_of_small (negative : Bool) {num den : Nat} (h : 2 * num < den) :
    ofQuotient negative num den = zero negative := by
  have hdiv : num / den = 0 := Nat.div_eq_of_lt (by omega)
  have hround : roundHalfEven num den = 0 := by
    unfold roundHalfEven
    rw [hdiv, Nat.mod_eq_of_lt (by omega)]
    exact if_pos (.inl h)
  have hgap : gap 0 = 1 := rfl
  unfold ofQuotient
  rw [hdiv, hgap]
  dsimp only
  rw [Nat.mul_one, hround]
  exact ofUnits_of_fits negative fits_zero

/-- What is so far beyond the limit is rounded to infinity. -/
theorem ofQuotient_of_large (negative : Bool) {num : Nat} (h : 3 * unitLimit ≤ 2 * num) :
    ofQuotient negative num 1 = infinite negative := by
  have hlimit : 2 ^ 2 ≤ unitLimit := Nat.pow_le_pow_right (by decide) (by decide)
  have hpos : num ≠ 0 := by omega
  have hlog : 2 ≤ num.log2 := (Nat.le_log2 hpos).2 (by omega)
  -- the gap is at most a quarter, so that rounding down does not come below the limit
  have hgap : 4 * gap num ≤ num := calc
    4 * gap num ≤ 4 * 2 ^ (num.log2 - 2) :=
      Nat.mul_le_mul_left 4 (Nat.pow_le_pow_right (by decide) (by omega))
    _ = 2 ^ (num.log2 - 2 + 2) := by rw [Nat.pow_add, Nat.mul_comm]
    _ = 2 ^ num.log2 := by rw [Nat.sub_add_cancel hlog]
    _ ≤ num := Nat.log2_self_le hpos
  have hround : num / gap num ≤ roundHalfEven num (gap num) := by
    unfold roundHalfEven
    dsimp only
    split
    · exact Nat.le_refl _
    · exact Nat.le_succ _
  have hrounded : unitLimit ≤ gap num * roundHalfEven num (gap num) := by
    have hmod := Nat.mod_lt num (gap_pos num)
    have hdiv := Nat.div_add_mod num (gap num)
    have hmul := Nat.mul_le_mul_left (gap num) hround
    omega
  unfold ofQuotient
  rw [Nat.div_one]
  dsimp only
  rw [Nat.one_mul]
  exact dif_neg fun fits => absurd fits.1 (not_lt.2 hrounded)

/-! ## Decimals -/

/-- **A decimal is read as its rounded quotient of units**, with or without a shortcut. -/
theorem ofDecimal_eq_ofQuotient (negative : Bool) (s : Scientific) :
    ofDecimal negative s = ofQuotient negative (unitsOf s).1 (unitsOf s).2 := by
  obtain ⟨digits, exponent⟩ := s
  unfold ofDecimal ofScientific
  dsimp only
  split_ifs with hzero hlarge hsmall hnonneg
  · have hnum : (unitsOf ⟨digits, exponent⟩).1 = 0 := by
      unfold unitsOf
      rw [hzero]
      split <;> simp
    rw [hnum, ofQuotient_zero negative (unitsOf_den_pos _)]
  · rw [unitsOf_of_nonneg (by omega)]
    exact (ofQuotient_of_large negative (three_unitLimit_le (Nat.pos_of_ne_zero hzero) hlarge)).symm
  · rw [unitsOf_of_neg (by omega)]
    exact (ofQuotient_of_small negative (two_mul_units_lt hsmall)).symm
  · rw [unitsOf_of_nonneg hnonneg]
    rfl
  · rw [unitsOf_of_neg (not_le.1 hnonneg)]
    rfl

/-- Whether a decimal is too large does not depend on its sign. -/
theorem isFinite_ofDecimal (a b : Bool) (s : Scientific) :
    (ofDecimal a s).isFinite = (ofDecimal b s).isFinite := by
  rw [ofDecimal_eq_ofQuotient, ofDecimal_eq_ofQuotient]
  unfold ofQuotient ofUnits
  dsimp only
  split <;> rfl

/-- The digits of a whole number are read as its binary64 number. -/
theorem ofDecimal_natAbs (i : Int) : ofDecimal (decide (i < 0)) ⟨i.natAbs, 0⟩ = ofInt i := by
  have hone : i.natAbs * 10 ^ Int.toNat 0 = i.natAbs := Nat.mul_one _
  rw [ofDecimal_eq_ofQuotient, unitsOf_of_nonneg le_rfl, hone, ofInt]

/-- A zero at the end may stand in the exponent. -/
theorem ofDecimal_mul_ten (negative : Bool) (digits : Nat) (exponent : Int) :
    ofDecimal negative ⟨digits * 10, exponent⟩ = ofDecimal negative ⟨digits, exponent + 1⟩ := by
  obtain ⟨k, hk, hunits⟩ := exists_unitsOf_mul_ten digits exponent
  rw [ofDecimal_eq_ofQuotient, ofDecimal_eq_ofQuotient, hunits]
  exact ofQuotient_mul_left hk negative _ _

end Binary64

namespace Decimal

/-! ## Reduced decimals -/

variable {α : Type} {view : Decimal → α}

/-- What a digit does not change, dropped zeros do not change. -/
theorem view_dropZeros (hstep : ∀ digits scale, view ⟨digits, scale - 1⟩ = view ⟨digits * 10, scale⟩)
    (fuel : Nat) (d : Decimal) : view (dropZeros fuel d) = view d := by
  induction fuel generalizing d with
  | zero => rfl
  | succ fuel ih =>
      obtain ⟨digits, scale⟩ := d
      rw [dropZeros]
      split
      · rename_i hzero
        have hdigits : digits / 10 * 10 = digits := Int.ediv_mul_cancel (Int.dvd_of_emod_eq_zero hzero)
        rw [ih, hstep, hdigits]
      · rfl

/-- What does not see whether a zero at the end stands in the scale, and not the scale of zero, does not
tell a decimal from its reduced form. -/
theorem view_reduce (hzero : ∀ scale, view ⟨0, 0⟩ = view ⟨0, scale⟩)
    (hstep : ∀ digits scale, view ⟨digits, scale - 1⟩ = view ⟨digits * 10, scale⟩) (d : Decimal) :
    view d.reduce = view d := by
  unfold reduce
  split
  · rename_i hdigits
    rw [hzero d.scale, ← hdigits]
  · exact view_dropZeros hstep _ d

/-- Zero is zero with its digits reduced, and nothing else is. -/
theorem isZero_reduce (d : Decimal) : d.reduce.isZero = d.isZero := by
  refine view_reduce (fun _ => rfl) (fun digits scale => ?_) d
  refine decide_eq_decide.2 ⟨fun h => ?_, fun h => ?_⟩ <;> dsimp only at h ⊢ <;> omega

/-- **Decimals of one value are nearest to one number.** -/
theorem toBinary64_reduce (d : Decimal) : d.reduce.toBinary64 = d.toBinary64 := by
  have hzero (scale : Int) : toBinary64 ⟨0, scale⟩ = Binary64.zero false := by
    show Binary64.ofScientific (decide ((0 : Int) < 0)) 0 (-scale) = _
    rw [Binary64.ofScientific, if_pos rfl]
    rfl
  refine view_reduce (fun scale => ?_) (fun digits scale => ?_) d
  · rw [hzero, hzero]
  · have hsign : decide (digits < 0) = decide (digits * 10 < 0) :=
      decide_eq_decide.2 ⟨fun h => by omega, fun h => by omega⟩
    have hsize : (digits * 10).natAbs = digits.natAbs * 10 := Int.natAbs_mul digits 10
    have hexponent : -(scale - 1) = -scale + 1 := by omega
    unfold toBinary64 magnitude
    dsimp only
    rw [hsign, hsize, hexponent, Binary64.ofDecimal_mul_ten]

/-- Decimals of one value have one binary64 number. -/
theorem toBinary64_congr {d e : Decimal} (h : d.reduce = e.reduce) : d.toBinary64 = e.toBinary64 := by
  rw [← toBinary64_reduce, h, toBinary64_reduce]

end Decimal

end Latent

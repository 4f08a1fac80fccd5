import Latent.Proofs.Binary64.Decimals
import Latent.Proofs.Binary64.Ranks

/-!
# Numbers that rounding keeps apart

A quotient moves by half a gap at most when it is rounded, so that quotients more than a gap apart keep
their order (`round_lt_round`).  Multiples of `1 / den` are therefore told apart by their roundings as
long as a gap is shorter than `1 / den`.
-/

namespace Latent

namespace Binary64

/-! ## Roundings -/

/-- Rounding moves a quotient by a half at most. -/
theorem roundHalfEven_bounds (num : Nat) {den : Nat} (hden : 0 < den) :
    2 * (den * roundHalfEven num den) ≤ 2 * num + den ∧
      2 * num ≤ 2 * (den * roundHalfEven num den) + den := by
  have hdiv := Nat.div_add_mod num den
  have hmod := Nat.mod_lt num hden
  unfold roundHalfEven
  dsimp only
  split
  · omega
  · rw [Nat.mul_add]
    omega

/-- Larger counts do not lie closer. -/
theorem gap_mono {m n : Nat} (h : m ≤ n) : gap m ≤ gap n := by
  have hlog : m.log2 ≤ n.log2 := by
    rcases Nat.eq_zero_or_pos m with rfl | hpos
    · exact Nat.zero_le _
    · exact (Nat.le_log2 (by omega)).2 ((Nat.log2_self_le hpos.ne').trans h)
  rw [gap_eq, gap_eq]
  exact Nat.pow_le_pow_right Nat.two_pos (Nat.sub_le_sub_right hlog 52)

/-- The count of units that a quotient of units is rounded to. -/
def round (num den : Nat) : Nat := gap (num / den) * roundHalfEven num (den * gap (num / den))

theorem ofQuotient_eq_ofUnits (negative : Bool) (num den : Nat) :
    ofQuotient negative num den = ofUnits negative (round num den) := rfl

/-- Rounding moves a quotient by half a gap at most. -/
theorem round_bounds (num : Nat) {den : Nat} (hden : 0 < den) :
    2 * (den * round num den) ≤ 2 * num + den * gap (num / den) ∧
      2 * num ≤ 2 * (den * round num den) + den * gap (num / den) := by
  have hmul : den * round num den
      = den * gap (num / den) * roundHalfEven num (den * gap (num / den)) := by
    rw [round, Nat.mul_assoc]
  rw [hmul]
  exact roundHalfEven_bounds num (Nat.mul_pos hden (gap_pos _))

/-- **Quotients more than a gap apart keep their order.** -/
theorem round_lt_round {m n den : Nat} (hden : 0 < den) (h : m + den * gap (n / den) < n) :
    round m den < round n den := by
  have hgap : den * gap (m / den) ≤ den * gap (n / den) :=
    Nat.mul_le_mul_left den (gap_mono (Nat.div_le_div_right (by omega)))
  have hlow := (round_bounds m hden).1
  have hhigh := (round_bounds n hden).2
  have hmul : den * round m den < den * round n den := by omega
  exact Nat.lt_of_mul_lt_mul_left hmul

/-! ## Multiples of a fraction -/

/-- Up to `limit / den` the multiples of `1 / den` lie more than a gap apart. -/
structure KeepsApart (limit den : Nat) : Prop where
  den_pos : 0 < den
  limit_lt : limit < 2 ^ 900
  gap_lt : den * gap (limit * unitsPerOne / den) < unitsPerOne

namespace KeepsApart

variable {limit den k l : Nat} (h : KeepsApart limit den)

include h

/-- Quotients that differ by a whole number or more are rounded apart, in their order. -/
theorem round_lt (hlt : k < l) (hl : l ≤ limit) :
    round (k * unitsPerOne) den < round (l * unitsPerOne) den := by
  have hstep : k * unitsPerOne + unitsPerOne ≤ l * unitsPerOne := by
    rw [← Nat.succ_mul]
    exact Nat.mul_le_mul_right _ hlt
  have hgap : den * gap (l * unitsPerOne / den) ≤ den * gap (limit * unitsPerOne / den) :=
    Nat.mul_le_mul_left den (gap_mono (Nat.div_le_div_right (Nat.mul_le_mul_right _ hl)))
  have hlimit := h.gap_lt
  exact round_lt_round h.den_pos (by omega)

/-- So the rounded quotient tells the whole number. -/
theorem eq_of_round_eq (hk : k ≤ limit) (hl : l ≤ limit)
    (heq : round (k * unitsPerOne) den = round (l * unitsPerOne) den) : k = l := by
  rcases Nat.lt_trichotomy k l with hlt | hkl | hgt
  · exact absurd heq (h.round_lt hlt hl).ne
  · exact hkl
  · exact absurd heq (h.round_lt hgt hk).ne'

/-- Only zero is rounded to zero. -/
theorem eq_zero_of_round_eq_zero (hk : k ≤ limit) (hzero : round (k * unitsPerOne) den = 0) :
    k = 0 := by
  by_contra hne
  have hlt := h.round_lt (Nat.pos_of_ne_zero hne) hk
  omega

/-- No such quotient is too large. -/
theorem fits (hk : k ≤ limit) : Fits (round (k * unitsPerOne) den) := by
  refine fits_round (lt_of_le_of_lt (Nat.div_le_self _ _) ?_)
  have hlimit := h.limit_lt
  rw [unitsPerOne_eq]
  refine (Nat.mul_lt_mul_of_pos_right (hk.trans_lt hlimit) (Nat.two_pow_pos 1074)).trans_le ?_
  rw [← Nat.pow_add]
  exact Nat.pow_le_pow_right Nat.two_pos (by omega)

/-- **Multiples of a fraction that rounding keeps apart are told by their ranks.** -/
theorem eq_of_rank? {a b : Int} (ha : a.natAbs ≤ limit) (hb : b.natAbs ≤ limit)
    (heq : (ofQuotient (decide (a < 0)) (a.natAbs * unitsPerOne) den).rank?
      = (ofQuotient (decide (b < 0)) (b.natAbs * unitsPerOne) den).rank?) : a = b := by
  rw [ofQuotient_eq_ofUnits, ofQuotient_eq_ofUnits, ofUnits_of_fits _ (h.fits ha),
    ofUnits_of_fits _ (h.fits hb)] at heq
  obtain ⟨hround, hsign⟩ := signed_eq_signed_iff.1 (Option.some.inj heq)
  have habs : a.natAbs = b.natAbs := h.eq_of_round_eq ha hb hround
  rcases hsign with hsign | hzero
  · have hneg : a < 0 ↔ b < 0 := decide_eq_decide.1 hsign
    omega
  · have hnone := h.eq_zero_of_round_eq_zero ha hzero
    omega

end KeepsApart

/-- So do those of a denominator that is not too large, as long as a numerator has at most 52 bits. -/
theorem keepsApart_of_lt {limit den : Nat} (hpos : 0 < den) (hden : den < unitsPerOne)
    (hlimit : limit < 2 ^ 52) : KeepsApart limit den := by
  refine ⟨hpos, hlimit.trans (Nat.pow_lt_pow_right (by decide) (by decide)), ?_⟩
  generalize hunits : limit * unitsPerOne / den = units
  rcases Nat.lt_or_ge 52 units.log2 with hlarge | hsmall
  · have hne : units ≠ 0 := by
      rintro rfl
      exact absurd hlarge (by decide)
    have hgap : gap units * 2 ^ 52 ≤ units := by
      rw [gap_eq, ← Nat.pow_add, Nat.sub_add_cancel hlarge.le]
      exact Nat.log2_self_le hne
    have hmul : den * gap units * 2 ^ 52 < unitsPerOne * 2 ^ 52 := calc
      den * gap units * 2 ^ 52 = den * (gap units * 2 ^ 52) := Nat.mul_assoc _ _ _
      _ ≤ den * units := Nat.mul_le_mul_left den hgap
      _ ≤ limit * unitsPerOne := by
        rw [← hunits]
        exact Nat.mul_div_le _ _
      _ < 2 ^ 52 * unitsPerOne := Nat.mul_lt_mul_of_pos_right hlimit unitsPerOne_pos
      _ = unitsPerOne * 2 ^ 52 := Nat.mul_comm _ _
    exact Nat.lt_of_mul_lt_mul_right hmul
  · rwa [gap_of_log2_le hsmall, Nat.mul_one]

/-! ## Quotients of whole numbers -/

/-- The quotient of an exact whole number by an exact positive one is rounded once. -/
theorem ofInt_div {i j : Int} (hi : IsExact i) (hj : IsExact j) (hpos : 0 < j) :
    ofInt i / ofInt j = ofQuotient (decide (i < 0)) (i.natAbs * unitsPerOne) j.natAbs := by
  have hunits : j.natAbs * unitsPerOne ≠ 0 := Nat.mul_ne_zero (by omega) unitsPerOne_pos.ne'
  have hsign : (decide (i < 0) ^^ decide (j < 0)) = decide (i < 0) := by
    rw [decide_eq_false (not_lt.2 hpos.le), Bool.xor_false]
  rw [ofInt_of_isExact hi, ofInt_of_isExact hj, div_finite, if_neg hunits, hsign,
    Nat.mul_comm _ unitsPerOne, Nat.mul_comm j.natAbs, ofQuotient_mul_left unitsPerOne_pos]

/-- A whole quotient of exact numbers is exact. -/
theorem ofInt_mul_div {i j : Int} (hi : IsExact i) (hj : IsExact j) (hij : IsExact (i * j)) (hpos : 0 < j) :
    ofInt (i * j) / ofInt j = ofInt i := by
  have hunits : (i * j).natAbs * unitsPerOne = i.natAbs * unitsPerOne * j.natAbs := by
    rw [Int.natAbs_mul]
    ring
  have hsign : decide (i * j < 0) = decide (i < 0) := by
    refine decide_eq_decide.2 ⟨fun h => ?_, fun h => mul_neg_of_neg_of_pos h hpos⟩
    by_contra hge
    exact absurd h (not_lt.2 (mul_nonneg (by omega) hpos.le))
  rw [ofInt_div hij hj hpos, hunits, hsign, ofQuotient_of_fits _ (by omega) hi, ofInt_of_isExact hi]

end Binary64

end Latent

import Latent.Binary64.Shortest
import Latent.Proofs.Binary64.Exact

/-!
# Rounding to a given number

A quotient of units is rounded to a number when it is nearer to it than to its neighbours, and halfway
when the number is the even one.  The neighbours of a number lie a gap apart, except that the gap below
a power of two may be half of the gap above it.  `ofQuotient_of_near` states this for the interval that
the shortest decimals are searched in.
-/

namespace Latent

namespace Binary64

/-! ## Gaps -/

/-- The distance from a count of units to the next smaller count that fits. -/
def gapBelow (units : Nat) : Nat :=
  if units = Nat.pow 2 units.log2 ∧ 1 < gap units then gap units / 2 else gap units

theorem doubledInterval_eq (units : Nat) :
    doubledInterval units = (2 * units - gapBelow units, 2 * units + gap units) := rfl

/-- The gap below a number is no wider than the one above. -/
theorem gapBelow_le (units : Nat) : gapBelow units ≤ gap units := by
  unfold gapBelow
  split
  · exact Nat.div_le_self _ _
  · exact le_rfl

/-- A gap is no wider than the number that it follows. -/
theorem gap_le {units : Nat} (h : Fits units) (hpos : 0 < units) : gap units ≤ units :=
  Nat.le_of_dvd hpos h.gap_dvd

/-- A gap divides the power of two above. -/
theorem gap_dvd_two_pow (units : Nat) : gap units ∣ 2 ^ units.log2 := by
  rw [gap_eq]
  exact Nat.pow_dvd_pow 2 (Nat.sub_le _ _)

/-- The next larger count is not above the next power of two. -/
theorem add_gap_le {units : Nat} (h : Fits units) : units + gap units ≤ 2 ^ (units.log2 + 1) := by
  have hlt : units < 2 ^ (units.log2 + 1) := Nat.lt_log2_self
  have hdvd : gap units ∣ 2 ^ (units.log2 + 1) - units :=
    Nat.dvd_sub ((gap_dvd_two_pow units).trans (Nat.pow_dvd_pow 2 (Nat.le_succ _))) h.gap_dvd
  have hle := Nat.le_of_dvd (by omega) hdvd
  omega

/-- A count above a power of two is at least a gap above it. -/
theorem two_pow_add_gap_le {units : Nat} (h : Fits units) (hlt : 2 ^ units.log2 < units) :
    2 ^ units.log2 + gap units ≤ units := by
  have hdvd : gap units ∣ units - 2 ^ units.log2 := Nat.dvd_sub h.gap_dvd (gap_dvd_two_pow units)
  have hle := Nat.le_of_dvd (by omega) hdvd
  omega

/-- Small numbers are one unit apart. -/
theorem gap_of_log2_le {n : Nat} (h : n.log2 ≤ 52) : gap n = 1 := by
  rw [gap_eq, Nat.sub_eq_zero_of_le h, Nat.pow_zero]

/-- In the binade below a number the gap is half as large, as soon as there is room for that. -/
theorem gap_eq_two_mul {m n : Nat} (h : m.log2 = n.log2 + 1) (hn : 52 ≤ n.log2) :
    gap m = 2 * gap n := by
  rw [gap_eq, gap_eq, h, show n.log2 + 1 - 52 = (n.log2 - 52) + 1 by omega, Nat.pow_succ,
    Nat.mul_comm]

/-! ## Rounding -/

/-- A quotient is rounded to a whole number that is nearest to it; halfway it is the even one. -/
theorem roundHalfEven_eq {num den m : Nat} (hden : 0 < den)
    (hlow : 2 * (m * den) ≤ 2 * num + den) (hhigh : 2 * num ≤ 2 * (m * den) + den)
    (htie : m % 2 = 0 ∨ 2 * (m * den) < 2 * num + den ∧ 2 * num < 2 * (m * den) + den) :
    roundHalfEven num den = m := by
  have hdiv : num / den * den + num % den = num := Nat.div_add_mod' num den
  have hmod : num % den < den := Nat.mod_lt num hden
  unfold roundHalfEven
  dsimp only
  generalize num / den = q at *
  generalize num % den = r at *
  -- the rounded number is the floor of the quotient or the number above it
  have hle : q ≤ m := by
    by_contra hgt
    have hmul : (m + 1) * den ≤ q * den := Nat.mul_le_mul_right den (by omega)
    rw [Nat.add_mul, Nat.one_mul] at hmul
    omega
  have hge : m ≤ q + 1 := by
    by_contra hgt
    have hmul : (q + 2) * den ≤ m * den := Nat.mul_le_mul_right den (by omega)
    rw [Nat.add_mul] at hmul
    omega
  rcases Nat.eq_or_lt_of_le hle with heq | hlt
  · -- the quotient is not below `m`
    subst heq
    rw [if_pos]
    omega
  · -- the quotient is below `m`
    have hm : m = q + 1 := by omega
    subst hm
    rw [Nat.add_mul, Nat.one_mul] at hlow hhigh htie
    rw [if_neg]
    omega

/-- A quotient is rounded to the count that is found on the grid of its gap. -/
theorem ofQuotient_of_roundHalfEven (negative : Bool) {units num den m : Nat} (fits : Fits units)
    (hunits : units = gap (num / den) * m) (hm : roundHalfEven num (den * gap (num / den)) = m) :
    ofQuotient negative num den = finite negative units fits := by
  unfold ofQuotient
  dsimp only
  rw [hm, ← hunits, ofUnits_of_fits negative fits]

/-- The quotient `num / den` of units rounds to the given count of them: it is not beyond the middle
between the count and either neighbour, and not in the middle unless the count is even. -/
structure Near (units num den : Nat) : Prop where
  low : (2 * units - gapBelow units) * den ≤ 2 * num
  high : 2 * num ≤ (2 * units + gap units) * den
  tie : units / gap units % 2 = 0 ∨
    (2 * units - gapBelow units) * den < 2 * num ∧ 2 * num < (2 * units + gap units) * den

section Near

variable {units num den : Nat} (fits : Fits units) (hpos : 0 < units) (hden : 0 < den)
  (h : Near units num den)

include fits hden h

/-- A quotient near to a count is below the next power of two. -/
theorem Near.div_lt : num / den < 2 ^ (units.log2 + 1) := by
  rw [Nat.div_lt_iff_lt_mul hden]
  have hadd : 2 * units + gap units < 2 * 2 ^ (units.log2 + 1) := by
    have hle := add_gap_le fits
    have hgap := gap_pos units
    omega
  have hmul := h.high.trans_lt (Nat.mul_lt_mul_of_pos_right hadd hden)
  rw [Nat.mul_assoc] at hmul
  omega

omit hden in
/-- Only a power of two is near to a quotient in the binade below. -/
theorem Near.eq_two_pow (hself : 2 ^ units.log2 ≤ units) (hlt : num < 2 ^ units.log2 * den) :
    units = 2 ^ units.log2 := by
  by_contra hne
  have hstep := two_pow_add_gap_le fits (by omega)
  have hbelow := gapBelow_le units
  have hle : 2 * 2 ^ units.log2 * den ≤ (2 * units - gapBelow units) * den :=
    Nat.mul_le_mul_right den (by omega)
  have hlow := h.low
  rw [Nat.mul_assoc] at hle
  omega

include hpos

/-- A quotient near to a power of two is at least half of it. -/
theorem Near.two_pow_le_div (heq : units = 2 ^ units.log2) (hlog : 53 ≤ units.log2) :
    2 ^ (units.log2 - 1) ≤ num / den := by
  have hpow : 2 ^ units.log2 = 2 * 2 ^ (units.log2 - 1) := by
    rw [← Nat.pow_succ']
    congr 1
    omega
  have hgap := gap_le fits hpos
  have hbelow : 2 * gapBelow units ≤ gap units := by
    have hone : 1 < gap units := by
      rw [gap_eq]
      exact Nat.one_lt_two_pow (by omega)
    rw [gapBelow, if_pos ⟨heq, hone⟩]
    exact Nat.mul_div_le (gap units) 2
  have hle : 2 * 2 ^ (units.log2 - 1) * den ≤ (2 * units - gapBelow units) * den :=
    Nat.mul_le_mul_right den (by omega)
  have hlow := h.low
  rw [Nat.le_div_iff_mul_le hden]
  rw [Nat.mul_assoc] at hle
  omega

/-- A quotient near to a count has the gap of the count, or it lies in the binade below a power of two,
with half the gap. -/
theorem Near.gap_div : gap (num / den) = gap units ∨
    units = 2 ^ units.log2 ∧ gap units = 2 * gap (num / den) ∧ num < units * den := by
  have hself : 2 ^ units.log2 ≤ units := Nat.log2_self_le hpos.ne'
  have hpow := Nat.two_pow_pos units.log2
  by_cases hge : 2 ^ units.log2 ≤ num / den
  · left
    have hlog : (num / den).log2 = units.log2 :=
      (Nat.log2_eq_iff (by omega)).2 ⟨hge, h.div_lt fits hden⟩
    rw [gap_eq, gap_eq, hlog]
  · -- the count is a power of two, and the quotient is less
    have hlt : num < 2 ^ units.log2 * den := by
      rw [← Nat.div_lt_iff_lt_mul hden]
      omega
    have heq := h.eq_two_pow fits hself hlt
    by_cases hlog : units.log2 ≤ 52
    · -- down here all gaps are one
      left
      have hlog' : (num / den).log2 ≤ 52 := by
        rcases Nat.eq_zero_or_pos (num / den) with hzero | hdiv
        · rw [hzero]
          decide
        · have hless := (Nat.log2_lt hdiv.ne').2 (Nat.lt_of_not_le hge)
          omega
      rw [gap_of_log2_le hlog, gap_of_log2_le hlog']
    · right
      have hbinade := h.two_pow_le_div fits hpos hden heq (by omega)
      have hhalf := Nat.two_pow_pos (units.log2 - 1)
      have hlogDiv : (num / den).log2 = units.log2 - 1 := by
        refine (Nat.log2_eq_iff (by omega)).2 ⟨hbinade, ?_⟩
        rw [Nat.sub_add_cancel (by omega)]
        omega
      refine ⟨heq, gap_eq_two_mul (by omega) (by omega), ?_⟩
      rw [heq]
      exact hlt

/-- On the grid of the count itself the middles are half a gap away. -/
theorem Near.ofQuotient_of_gap_eq (negative : Bool) (hgap : gap (num / den) = gap units) :
    ofQuotient negative num den = finite negative units fits := by
  have hlow := h.low
  have hhigh := h.high
  have htie := h.tie
  have hbelow := gapBelow_le units
  have hgapLe := gap_le fits hpos
  have hle : (2 * units - gap units) * den ≤ (2 * units - gapBelow units) * den :=
    Nat.mul_le_mul_right den (by omega)
  rw [Nat.sub_mul, Nat.mul_assoc] at hle
  rw [Nat.add_mul, Nat.mul_assoc] at hhigh htie
  obtain ⟨m, hm⟩ := fits.gap_dvd
  have hdiv : units / gap units = m := Nat.div_eq_of_eq_mul_right (gap_pos units) hm
  have hstep : m * (den * gap units) = units * den := by
    conv_rhs => rw [hm]
    ring
  have hcomm : den * gap units = gap units * den := Nat.mul_comm _ _
  rw [hdiv] at htie
  apply ofQuotient_of_roundHalfEven negative (m := m) fits
  · rwa [hgap]
  · rw [hgap]
    apply roundHalfEven_eq (Nat.mul_pos hden (gap_pos units))
    · rw [hstep, hcomm]
      omega
    · rw [hstep, hcomm]
      omega
    · rw [hstep, hcomm]
      omega

/-- On the finer grid below a power of two, the power is `2 ^ 53` gaps, an even count. -/
theorem Near.ofQuotient_of_gap_half (negative : Bool) (heq : units = 2 ^ units.log2)
    (hgap : gap units = 2 * gap (num / den)) (hlt : num < units * den) :
    ofQuotient negative num den = finite negative units fits := by
  have hlow := h.low
  have hgapLe := gap_le fits hpos
  have hstepPos := gap_pos (num / den)
  have hlog : 52 < units.log2 := by
    by_contra hle
    rw [gap_of_log2_le (by omega)] at hgap
    omega
  have hunits : units = gap (num / den) * 2 ^ 53 := calc
    units = 2 ^ (units.log2 - 52) * 2 ^ 52 := by
      rw [← Nat.pow_add, Nat.sub_add_cancel hlog.le, ← heq]
    _ = 2 * gap (num / den) * 2 ^ 52 := by rw [← gap_eq, hgap]
    _ = gap (num / den) * 2 ^ 53 := by ring
  -- below a power of two the gap is the finer one
  have hhalf : gapBelow units = gap (num / den) := by
    rw [gapBelow, if_pos ⟨heq, by omega⟩]
    omega
  rw [hhalf, Nat.sub_mul, Nat.mul_assoc] at hlow
  apply ofQuotient_of_roundHalfEven negative fits hunits
  generalize gap (num / den) = step at *
  have hstep : 2 ^ 53 * (den * step) = units * den := by
    rw [hunits]
    ring
  have hcomm : den * step = step * den := Nat.mul_comm _ _
  apply roundHalfEven_eq (Nat.mul_pos hden hstepPos)
  · rw [hstep, hcomm]
    omega
  · rw [hstep]
    omega
  · exact Or.inl rfl

/-- **A quotient near to a count of units is rounded to it.** -/
theorem ofQuotient_of_near (negative : Bool) :
    ofQuotient negative num den = finite negative units fits := by
  rcases h.gap_div fits hpos hden with hgap | ⟨heq, hgap, hlt⟩
  · exact h.ofQuotient_of_gap_eq fits hpos hden negative hgap
  · exact h.ofQuotient_of_gap_half fits hpos hden negative heq hgap hlt

end Near

end Binary64

end Latent

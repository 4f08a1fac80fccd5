import Mathlib.Algebra.Order.Ring.Int
import Mathlib.Tactic.Linarith
import Mathlib.Tactic.Ring
import Latent.Binary64.Rounding
import Latent.Numeral.Word

/-!
# Exact binary64 numbers

A rounding changes nothing when the exact result already fits.  A count of units fits as soon as it is
`m · 2^k` with fewer than 54 bits in `m`, so that whole numbers up to `2^53`, and larger ones with
zeros at the end of their bits, are exact and are added and multiplied exactly.
-/

namespace Latent

namespace Binary64

/-! ## Powers of two -/

theorem unitsPerOne_eq : unitsPerOne = 2 ^ 1074 := rfl

theorem unitLimit_eq : unitLimit = 2 ^ 2098 := rfl

theorem gap_eq (units : Nat) : gap units = 2 ^ (units.log2 - 52) := rfl

theorem unitsPerOne_pos : 0 < unitsPerOne := by
  rw [unitsPerOne_eq]
  exact Nat.two_pow_pos _

theorem unitLimit_pos : 0 < unitLimit := by
  rw [unitLimit_eq]
  exact Nat.two_pow_pos _

theorem gap_pos (units : Nat) : 0 < gap units := Nat.pow_pos (by decide)

/-- A count that fits is a multiple of its gap. -/
theorem Fits.gap_dvd {units : Nat} (h : Fits units) : gap units ∣ units :=
  Nat.dvd_of_mod_eq_zero h.2

/-- Fewer than 54 bits, followed by zeros: such a count fits. -/
theorem fits_mul_two_pow {m k : Nat} (hm : m < 2 ^ 53) (hk : k ≤ 2045) : Fits (m * 2 ^ k) := by
  have hlt : m * 2 ^ k < 2 ^ (53 + k) := by
    rw [Nat.pow_add]
    exact Nat.mul_lt_mul_of_pos_right hm (Nat.two_pow_pos k)
  have hlimit : 2 ^ (53 + k) ≤ 2 ^ 2098 := Nat.pow_le_pow_right (by decide) (by omega)
  constructor
  · rw [unitLimit_eq]
    exact lt_of_lt_of_le hlt hlimit
  · apply Nat.mod_eq_zero_of_dvd
    rw [gap_eq]
    rcases Nat.eq_zero_or_pos (m * 2 ^ k) with h0 | hpos
    · rw [h0]
      exact dvd_zero _
    · have hlog : (m * 2 ^ k).log2 < 53 + k := (Nat.log2_lt (by omega)).2 hlt
      exact Dvd.dvd.mul_left (Nat.pow_dvd_pow 2 (by omega)) m

/-- A count of more than `52 + k` bits is a multiple of `2^k` when it fits. -/
theorem Fits.two_pow_dvd {units k : Nat} (h : Fits units) (hlarge : 2 ^ 52 * 2 ^ k ≤ units) :
    2 ^ k ∣ units := by
  have hpos := Nat.two_pow_pos k
  have hlog : 52 + k ≤ units.log2 := by
    rw [Nat.le_log2 (by omega), Nat.pow_add]
    exact hlarge
  refine Dvd.dvd.trans ?_ h.gap_dvd
  rw [gap_eq]
  exact Nat.pow_dvd_pow 2 (by omega)

/-! ## Rounding what fits -/

/-- A whole quotient is its own rounding. -/
theorem roundHalfEven_mul (q : Nat) {d : Nat} (hd : 0 < d) : roundHalfEven (q * d) d = q := by
  unfold roundHalfEven
  rw [Nat.mul_div_cancel q hd, Nat.mul_mod_left]
  simp [hd]

/-- A count of units that fits is not rounded. -/
theorem ofUnits_of_fits (negative : Bool) {units : Nat} (h : Fits units) :
    ofUnits negative units = finite negative units h := dif_pos h

/-- An exact quotient that fits is not changed. -/
theorem ofQuotient_of_fits (negative : Bool) {units den : Nat} (hd : 0 < den) (h : Fits units) :
    ofQuotient negative (units * den) den = finite negative units h := by
  obtain ⟨q, hq⟩ := h.gap_dvd
  have hround : roundHalfEven (units * den) (den * gap units) = q := by
    have hmul : units * den = q * (den * gap units) := by
      conv_lhs => rw [hq]
      ring
    rw [hmul, roundHalfEven_mul q (Nat.mul_pos hd (gap_pos units))]
  unfold ofQuotient
  rw [Nat.mul_div_cancel units hd]
  dsimp only
  rw [hround, ← hq, ofUnits_of_fits negative h]

/-- Zero divided is zero. -/
theorem ofQuotient_zero (negative : Bool) {den : Nat} (hden : 0 < den) :
    ofQuotient negative 0 den = zero negative := by
  have hzero := ofQuotient_of_fits negative hden fits_zero
  rwa [Nat.zero_mul] at hzero

/-- A quotient far below the limit is rounded to a number that fits. -/
theorem fits_round {num den : Nat} (h : num / den < 2 ^ 1990) :
    Fits (gap (num / den) * roundHalfEven num (den * gap (num / den))) := by
  have hlog : num / den < 2 ^ ((num / den).log2 + 1) := Nat.lt_log2_self
  have hexp : (num / den).log2 < 1990 := by
    rcases Nat.eq_zero_or_pos (num / den) with hzero | hpos
    · rw [hzero]
      decide
    · exact (Nat.log2_lt hpos.ne').2 h
  have hround : roundHalfEven num (den * gap (num / den)) ≤ 2 ^ 53 := by
    have hwhole : num / (den * gap (num / den)) < 2 ^ 53 := by
      rw [← Nat.div_div_eq_div_mul, Nat.div_lt_iff_lt_mul (gap_pos _), gap_eq, ← Nat.pow_add]
      exact hlog.trans_le (Nat.pow_le_pow_right (by decide) (by omega))
    have hle : roundHalfEven num (den * gap (num / den)) ≤ num / (den * gap (num / den)) + 1 := by
      unfold roundHalfEven
      dsimp only
      split <;> omega
    omega
  rw [Nat.mul_comm, gap_eq]
  rw [gap_eq] at hround
  rcases Nat.lt_or_eq_of_le hround with hlt | heq
  · exact fits_mul_two_pow hlt (by omega)
  · -- the carry into the next power of two leaves a single bit
    rw [heq, ← Nat.pow_add, ← Nat.one_mul (2 ^ _)]
    exact fits_mul_two_pow (by decide) (by omega)

/-! ## Views of a finite number -/

section Views

variable (negative : Bool) (units : Nat) (fits : Fits units)

theorem toInt?_finite : (finite negative units fits).toInt?
    = if units % unitsPerOne = 0 then some (signed negative (units / unitsPerOne)) else none := rfl

theorem truncate?_finite : (finite negative units fits).truncate?
    = some (signed negative (units / unitsPerOne)) := rfl

theorem nearestInt?_finite : (finite negative units fits).nearestInt?
    = some (signed negative ((2 * units + unitsPerOne) / (2 * unitsPerOne))) := rfl

theorem add_finite (other : Bool) (n : Nat) (hn : Fits n) :
    finite negative units fits + finite other n hn
      = if signed negative units + signed other n = 0 then zero (negative && other)
        else ofQuotient (decide (signed negative units + signed other n < 0))
          (signed negative units + signed other n).natAbs 1 := rfl

theorem mul_finite (other : Bool) (n : Nat) (hn : Fits n) :
    finite negative units fits * finite other n hn
      = ofQuotient (negative ^^ other) (units * n) unitsPerOne := by
  show mul _ _ = _
  rw [mul.eq_def]

theorem div_finite (other : Bool) (n : Nat) (hn : Fits n) :
    finite negative units fits / finite other n hn
      = if n = 0 then (if units = 0 then nan else infinite (negative ^^ other))
        else ofQuotient (negative ^^ other) (units * unitsPerOne) n := by
  show div _ _ = _
  rw [div.eq_def]

theorem isZero_finite : (finite negative units fits).isZero = decide (units = 0) := rfl

theorem eq_finite (other : Bool) (n : Nat) (hn : Fits n) :
    (finite negative units fits).eq (finite other n hn)
      = decide (signed negative units = signed other n) := rfl

theorem eq_infinite (other : Bool) : (finite negative units fits).eq (infinite other)
    = decide (signed negative units = signed other unitLimit) := rfl

theorem belowPowerOfTwo_finite (k : Nat) : (finite negative units fits).belowPowerOfTwo k
    = decide (units < unitsPerOne * Nat.pow 2 k) := rfl

end Views

/-- The units alone decide, not the proof that they fit. -/
theorem finite_congr {negative : Bool} {m n : Nat} (h : m = n) (hm : Fits m) (hn : Fits n) :
    finite negative m hm = finite negative n hn := by
  subst h
  rfl

/-! ## Whole numbers -/

/-- A whole number is exact when its units fit. -/
abbrev IsExact (i : Int) : Prop := Fits (i.natAbs * unitsPerOne)

/-- A whole number with fewer than 54 bits before a run of zeros is exact. -/
theorem isExact_mul_two_pow {m : Int} {k : Nat} (hm : m.natAbs < 2 ^ 53) (hk : k ≤ 900) :
    IsExact (m * 2 ^ k) := by
  have habs : (m * 2 ^ k).natAbs * unitsPerOne = m.natAbs * 2 ^ (k + 1074) := by
    rw [unitsPerOne_eq, Int.natAbs_mul, Int.natAbs_pow, Nat.mul_assoc,
      show Int.natAbs 2 = 2 from rfl, ← Nat.pow_add]
  unfold IsExact
  rw [habs]
  exact fits_mul_two_pow hm (by omega)

/-- Whole numbers up to `2^53` are exact. -/
theorem isExact_of_le {i : Int} (h : i.natAbs ≤ 2 ^ 53) : IsExact i := by
  rcases Nat.lt_or_eq_of_le h with hlt | heq
  · simpa using isExact_mul_two_pow (k := 0) hlt (by omega)
  · -- `2^53` itself has one bit and 53 zeros
    have hsign : i = (if i < 0 then -1 else 1) * 2 ^ 53 := by
      split <;> omega
    rw [hsign]
    exact isExact_mul_two_pow (by split <;> decide) (by omega)

/-- An exact whole number is a finite number with its sign and its units. -/
theorem ofInt_of_isExact {i : Int} (h : IsExact i) :
    ofInt i = finite (decide (i < 0)) (i.natAbs * unitsPerOne) h := by
  unfold ofInt
  have hround : ofQuotient (decide (i < 0)) (i.natAbs * unitsPerOne * 1) 1 = _ :=
    ofQuotient_of_fits (decide (i < 0)) Nat.one_pos h
  rwa [Nat.mul_one] at hround

/-- A whole number is its size with its sign. -/
theorem signed_natAbs (i : Int) : signed (decide (i < 0)) i.natAbs = i := by
  unfold signed
  by_cases h : i < 0
  · simp only [h, decide_true, if_true]
    omega
  · simp only [h, decide_false, Bool.false_eq_true, if_false]
    omega

/-- The sign goes with the first factor. -/
theorem signed_mul (negative : Bool) (m n : Nat) :
    signed negative (m * n) = signed negative m * n := by
  cases negative <;> simp [signed]

/-- The units of a signed whole number. -/
theorem signed_mul_unitsPerOne (i : Int) :
    signed (decide (i < 0)) (i.natAbs * unitsPerOne) = i * unitsPerOne := by
  rw [signed_mul, signed_natAbs]

/-- No whole number of moderate size becomes infinite. -/
theorem isFinite_ofInt {i : Int} (h : i.natAbs < 2 ^ 900) : (ofInt i).isFinite = true := by
  have hunits : i.natAbs * unitsPerOne / 1 < 2 ^ 1990 := by
    rw [Nat.div_one, unitsPerOne_eq]
    refine (Nat.mul_lt_mul_of_pos_right h (Nat.two_pow_pos 1074)).trans_le ?_
    rw [← Nat.pow_add]
    exact Nat.pow_le_pow_right Nat.two_pos (by omega)
  unfold ofInt ofQuotient
  dsimp only
  rw [ofUnits_of_fits _ (fits_round hunits)]
  rfl

/-- No whole number of 64 bits does, with a sign or without. -/
theorem isFinite_ofInt_of_lt {i : Int} (h : i.natAbs < 2 ^ 64) : (ofInt i).isFinite = true :=
  isFinite_ofInt (h.trans (Nat.pow_lt_pow_right (by decide) (by decide)))

/-- A 64-bit whole number is in the range of binary64. -/
theorem isFinite_ofInt64 (i : Int64) : (ofInt i.toInt).isFinite = true := by
  obtain ⟨hlow, hhigh⟩ := inInt64_toInt i
  exact isFinite_ofInt_of_lt (by omega)

/-- A whole number that is not negative does not become negative zero. -/
theorem ofInt_ne_negativeZero {i : Int} (h : 0 ≤ i) : ofInt i ≠ zero true := by
  have hsign : decide (i < 0) = false := decide_eq_false (by omega)
  unfold ofInt ofQuotient ofUnits
  dsimp only
  rw [hsign]
  split <;> exact fun heq => by cases heq

/-- The sign does not change the size. -/
theorem natAbs_signed (negative : Bool) (n : Nat) : (signed negative n).natAbs = n := by
  cases negative <;> simp [signed]

/-- An exact whole number is the whole number that it was made from. -/
theorem toInt?_ofInt {i : Int} (h : IsExact i) : (ofInt i).toInt? = some i := by
  rw [ofInt_of_isExact h, toInt?_finite, if_pos (Nat.mul_mod_left _ _),
    Nat.mul_div_cancel _ unitsPerOne_pos, signed_natAbs]

/-- An exact whole number is truncated to itself. -/
theorem truncate?_ofInt {i : Int} (h : IsExact i) : (ofInt i).truncate? = some i := by
  rw [ofInt_of_isExact h, truncate?_finite, Nat.mul_div_cancel _ unitsPerOne_pos, signed_natAbs]

/-- It is rounded to itself. -/
theorem nearestInt?_ofInt {i : Int} (h : IsExact i) : (ofInt i).nearestInt? = some i := by
  have hdiv : (2 * (i.natAbs * unitsPerOne) + unitsPerOne) / (2 * unitsPerOne) = i.natAbs := by
    have hpos := unitsPerOne_pos
    have hmul : 2 * (i.natAbs * unitsPerOne) = 2 * unitsPerOne * i.natAbs := by ring
    rw [hmul, Nat.mul_add_div (by omega), Nat.div_eq_of_lt (by omega), Nat.add_zero]
  rw [ofInt_of_isExact h, nearestInt?_finite, hdiv, signed_natAbs]

/-- It is below the powers of two that its size is below. -/
theorem belowPowerOfTwo_ofInt {i : Int} (h : IsExact i) (k : Nat) :
    (ofInt i).belowPowerOfTwo k = decide (i.natAbs < 2 ^ k) := by
  rw [ofInt_of_isExact h, belowPowerOfTwo_finite, Nat.mul_comm unitsPerOne]
  exact decide_eq_decide.2 (Nat.mul_lt_mul_right unitsPerOne_pos)

/-! ## Whole values -/

/-- A number that equals a whole number has so many units. -/
theorem units_of_toInt? {negative : Bool} {units : Nat} {fits : Fits units} {i : Int}
    (h : (finite negative units fits).toInt? = some i) :
    units = i.natAbs * unitsPerOne ∧ signed negative i.natAbs = i := by
  rw [toInt?_finite] at h
  split at h
  · rename_i hmod
    cases h
    rw [natAbs_signed, Nat.div_mul_cancel (Nat.dvd_of_mod_eq_zero hmod)]
    exact ⟨rfl, rfl⟩
  · cases h

/-- A whole number that some number equals is exact. -/
theorem isExact_of_toInt? {x : Binary64} {i : Int} (h : x.toInt? = some i) : IsExact i := by
  match x, h with
  | finite negative units fits, h =>
      obtain ⟨hu, _⟩ := units_of_toInt? h
      unfold IsExact
      rwa [← hu]

/-- From `2^53` on every number is whole, so that the nearest whole number is not another one. -/
theorem toInt?_of_nearestInt? {x : Binary64} {i : Int} (h : x.nearestInt? = some i)
    (hi : 2 ^ 53 < i.natAbs) : x.toInt? = some i := by
  match x, h with
  | finite negative units fits, h =>
      rw [nearestInt?_finite] at h
      have hsigned := Option.some.inj h
      have hnear : (2 * units + unitsPerOne) / (2 * unitsPerOne) = i.natAbs := by
        rw [← hsigned, natAbs_signed]
      have hpos := unitsPerOne_pos
      have hlarge : 2 ^ 52 * unitsPerOne ≤ units := by
        have hdiv := Nat.div_mul_le_self (2 * units + unitsPerOne) (2 * unitsPerOne)
        rw [hnear] at hdiv
        have hmul : 2 ^ 53 * (2 * unitsPerOne) ≤ i.natAbs * (2 * unitsPerOne) :=
          Nat.mul_le_mul_right _ hi.le
        omega
      -- from `2 ^ 52` ones on the gap is one at least, so that every number is a whole one
      obtain ⟨count, hcount⟩ : unitsPerOne ∣ units := by
        rw [unitsPerOne_eq] at hlarge ⊢
        exact fits.two_pow_dvd hlarge
      have hnearest : (2 * units + unitsPerOne) / (2 * unitsPerOne) = count := by
        rw [hcount, ← Nat.mul_assoc, Nat.mul_add_div (by omega), Nat.div_eq_of_lt (by omega),
          Nat.add_zero]
      rw [hnearest] at hsigned
      rw [toInt?_finite, hcount, if_pos (Nat.mul_mod_right _ _), Nat.mul_div_cancel_left _ hpos,
        hsigned]

/-- The nearest whole number of any number is exact. -/
theorem isExact_of_nearestInt? {x : Binary64} {i : Int} (h : x.nearestInt? = some i) :
    IsExact i := by
  rcases Nat.lt_or_ge (2 ^ 53) i.natAbs with hlarge | hsmall
  · exact isExact_of_toInt? (toInt?_of_nearestInt? h hlarge)
  · exact isExact_of_le hsmall

/-- Rounding to a whole number does not reach a power of two that the number is below. -/
theorem natAbs_lt_of_nearestInt? {x : Binary64} {i : Int} {k : Nat} (hk : 53 < k)
    (h : x.nearestInt? = some i) (hbelow : x.belowPowerOfTwo k = true) : i.natAbs < 2 ^ k := by
  rcases Nat.lt_or_ge (2 ^ 53) i.natAbs with hlarge | hsmall
  · have hint := toInt?_of_nearestInt? h hlarge
    cases x with
    | nan | infinite => cases hint
    | finite negative units fits =>
        obtain ⟨hunits, _⟩ := units_of_toInt? hint
        rw [belowPowerOfTwo_finite, decide_eq_true_eq, hunits, Nat.mul_comm unitsPerOne] at hbelow
        exact (Nat.mul_lt_mul_right unitsPerOne_pos).1 hbelow
  · exact hsmall.trans_lt (Nat.pow_lt_pow_right (by decide) hk)

/-- Only the negative zero is not made from the whole number that it equals. -/
theorem ofInt_of_toInt? {x : Binary64} {i : Int} (h : x.toInt? = some i) (hx : x ≠ zero true) :
    ofInt i = x := by
  match x, h with
  | finite negative units fits, h =>
      obtain ⟨hu, hs⟩ := units_of_toInt? h
      have hexact : IsExact i := isExact_of_toInt? h
      have hsign : decide (i < 0) = negative := by
        cases negative with
        | false => simp only [signed, Bool.false_eq_true, if_false] at hs; simp; omega
        | true =>
            simp only [signed, if_true] at hs
            have hne : i.natAbs ≠ 0 := by
              intro h0
              apply hx
              rw [h0, Nat.zero_mul] at hu
              exact finite_congr hu _ _
            simp only [decide_eq_true_eq]
            omega
      rw [ofInt_of_isExact hexact, hsign]
      exact finite_congr hu.symm _ _

/-- Equality is symmetric. -/
theorem eq_symm (x y : Binary64) : x.eq y = y.eq x := by
  unfold eq compare
  cases x.rank? <;> cases y.rank? <;> simp [eq_comm]

/-- An exact whole number is zero when it is made from zero. -/
theorem isZero_ofInt {i : Int} (h : IsExact i) : (ofInt i).isZero = decide (i = 0) := by
  rw [ofInt_of_isExact h, isZero_finite]
  refine decide_eq_decide.2 ⟨fun hzero => ?_, fun hzero => ?_⟩
  · rcases Nat.mul_eq_zero.1 hzero with hi | hone
    · omega
    · exact absurd hone unitsPerOne_pos.ne'
  · rw [hzero, Int.natAbs_zero, Nat.zero_mul]

/-- An exact whole number equals the numbers that equal the whole number it is made from. -/
theorem eq_ofInt {i : Int} (h : IsExact i) (y : Binary64) :
    (ofInt i).eq y = decide (y.toInt? = some i) := by
  rw [ofInt_of_isExact h]
  cases y with
  | nan => rfl
  | infinite negative =>
      -- infinity stands past all units that fit
      rw [eq_infinite]
      have hne : signed (decide (i < 0)) (i.natAbs * unitsPerOne) ≠ signed negative unitLimit := by
        intro heq
        have habs := congrArg Int.natAbs heq
        rw [natAbs_signed, natAbs_signed] at habs
        exact absurd habs h.1.ne
      rw [decide_eq_false hne]
      rfl
  | finite negative units fits =>
      rw [eq_finite, signed_mul_unitsPerOne]
      refine decide_eq_decide.2 ⟨fun heq => ?_, fun hint => ?_⟩
      · have hunits : units = i.natAbs * unitsPerOne := by
          have habs := congrArg Int.natAbs heq
          rwa [Int.natAbs_mul, Int.natAbs_natCast, natAbs_signed, eq_comm] at habs
        have hsign : signed negative i.natAbs = i := by
          rw [hunits, signed_mul] at heq
          have hne : (unitsPerOne : Int) ≠ 0 := by exact_mod_cast unitsPerOne_pos.ne'
          exact (Int.eq_of_mul_eq_mul_right hne heq).symm
        rw [toInt?_finite, hunits, if_pos (Nat.mul_mod_left _ _),
          Nat.mul_div_cancel _ unitsPerOne_pos, hsign]
      · obtain ⟨hunits, hsign⟩ := units_of_toInt? hint
        rw [hunits, signed_mul, hsign]

/-! ## Exact sums and products -/

theorem ofInt_zero : ofInt 0 = zero false := by decide +kernel

/-- The sum of exact whole numbers is rounded once. -/
theorem ofInt_add {a b : Int} (ha : IsExact a) (hb : IsExact b) :
    ofInt a + ofInt b = ofInt (a + b) := by
  -- the sum of the units is the units of the sum, and has its sign
  have hsum : a * (unitsPerOne : Int) + b * unitsPerOne = (a + b) * unitsPerOne := by ring
  have hpos : (0 : Int) < unitsPerOne := by exact_mod_cast unitsPerOne_pos
  rw [ofInt_of_isExact ha, ofInt_of_isExact hb, add_finite, signed_mul_unitsPerOne,
    signed_mul_unitsPerOne, hsum]
  by_cases h0 : a + b = 0
  · -- opposite numbers: one of them is not negative, so the zero is positive
    have hsign : (decide (a < 0) && decide (b < 0)) = false := by
      rw [Bool.and_eq_false_iff, decide_eq_false_iff_not, decide_eq_false_iff_not]
      omega
    rw [h0, ofInt_zero, Int.zero_mul, if_pos rfl, hsign]
  · have hne : (a + b) * (unitsPerOne : Int) ≠ 0 := mul_ne_zero h0 (ne_of_gt hpos)
    have hlt : (a + b) * (unitsPerOne : Int) < 0 ↔ a + b < 0 := by
      constructor
      · intro h
        by_contra hge
        exact absurd h (not_lt.2 (mul_nonneg (by omega) hpos.le))
      · intro h
        exact mul_neg_of_neg_of_pos h hpos
    have habs : ((a + b) * (unitsPerOne : Int)).natAbs = (a + b).natAbs * unitsPerOne := by
      rw [Int.natAbs_mul, Int.natAbs_natCast]
    rw [if_neg hne, habs, ofInt]
    simp only [hlt]

/-- The product of an exact whole number and a positive one is exact when it fits. -/
theorem ofInt_mul {a b : Int} (ha : IsExact a) (hb : IsExact b) (hpos : 0 < b)
    (hab : IsExact (a * b)) : ofInt a * ofInt b = ofInt (a * b) := by
  have hunits : a.natAbs * unitsPerOne * (b.natAbs * unitsPerOne)
      = (a * b).natAbs * unitsPerOne * unitsPerOne := by
    rw [Int.natAbs_mul]
    ring
  have hneg : (a * b < 0) = (a < 0) := by
    rw [eq_iff_iff]
    constructor
    · intro h
      by_contra hge
      exact absurd h (not_lt.2 (mul_nonneg (by omega) hpos.le))
    · intro h
      exact mul_neg_of_neg_of_pos h hpos
  have hsign : (decide (a < 0) ^^ decide (b < 0)) = decide (a * b < 0) := by
    simp only [hneg, not_lt.2 hpos.le, decide_false, Bool.xor_false]
  rw [ofInt_of_isExact ha, ofInt_of_isExact hb, ofInt_of_isExact hab, mul_finite, hunits, hsign,
    ofQuotient_of_fits _ unitsPerOne_pos hab]

end Binary64

end Latent

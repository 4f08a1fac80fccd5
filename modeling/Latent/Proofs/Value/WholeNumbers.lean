import Latent.Evaluate
import Latent.Proofs.Value.Settled
import Latent.Wire.Encode
import Mathlib.Algebra.Field.Rat
import Mathlib.Tactic.NormNum

/-!
# Numbers that are whole

Integers, floats and decimals stand for rational numbers.  A number that is narrowed to 64 bits becomes the
whole number that it stands for, and none when it is no whole number in range.  One view is less strict
(`Value.toInt64?`): a whole float beyond the range becomes the end of it.
-/

namespace Latent

/-- `int64?` finds the 64-bit number of this size and no other. -/
theorem int64?_eq_some_iff {n : Int} {i : Int64} : int64? n = some i ↔ n = i.toInt :=
  ⟨fun h => (toInt_of_int64? h).symm, fun h => h ▸ int64?_toInt i⟩

/-- A clamped number is the number itself, or an end of the range that it lies beyond. -/
theorem ofIntClamp_eq_iff {n : Int} {i : Int64} :
    Int64.ofIntClamp n = i ↔ n = i.toInt ∨
      (Int64.maxValue.toInt < n ∧ i = .maxValue ∨ n < Int64.minValue.toInt ∧ i = .minValue) := by
  have hlow : Int64.minValue.toInt ≤ i.toInt := i.le_toInt
  have hhigh : i.toInt ≤ Int64.maxValue.toInt := Int.le_of_lt_add_one i.toInt_lt
  by_cases hmin : Int64.minValue.toInt ≤ n
  · by_cases hmax : n ≤ Int64.maxValue.toInt
    · rw [← Int64.toInt_inj, Int64.toInt_ofIntClamp hmin hmax]
      omega
    · have hne : n ≠ i.toInt := by omega
      rw [Int64.ofIntClamp, dif_pos hmin, dif_neg hmax, eq_comm]
      simp only [hne, Int.lt_of_not_ge hmax, Int.not_lt.2 hmin, true_and, false_and, false_or, or_false]
  · have hne : n ≠ i.toInt := by omega
    have hmax : ¬ Int64.maxValue.toInt < n := by omega
    rw [Int64.ofIntClamp, dif_neg hmin, eq_comm]
    simp only [hne, hmax, Int.lt_of_not_ge hmin, true_and, false_and, false_or]

/-! ## Binary64 numbers -/

namespace Binary64

/-- The rational number that a finite number is. -/
def toRat? : Binary64 → Option ℚ
  | finite negative units _ => some ((signed negative units : ℤ) / (unitsPerOne : ℚ))
  | _ => none

/-- A finite number is a whole one if its units are so many ones. -/
theorem toRat?_finite {negative : Bool} {units : Nat} {fits : Fits units} {n : Int} :
    (finite negative units fits).toRat? = some (n : ℚ) ↔ signed negative units = n * unitsPerOne := by
  have hpos : (unitsPerOne : ℚ) ≠ 0 := by exact_mod_cast unitsPerOne_pos.ne'
  rw [toRat?, Option.some_inj, div_eq_iff hpos]
  exact_mod_cast Iff.rfl

/-- The whole number that a number equals is the rational number that it is. -/
theorem toInt?_eq_some_iff {x : Binary64} {n : Int} : x.toInt? = some n ↔ x.toRat? = some (n : ℚ) := by
  cases x with
  | nan | infinite _ => exact iff_of_false nofun nofun
  | finite negative units fits =>
      rw [toRat?_finite]
      constructor
      · intro h
        obtain ⟨hunits, hsigned⟩ := units_of_toInt? h
        rw [hunits, signed_mul, hsigned]
      · intro h
        have hunits : units = n.natAbs * unitsPerOne := by
          have habs := congrArg Int.natAbs h
          rwa [natAbs_signed, Int.natAbs_mul, Int.natAbs_natCast] at habs
        rw [hunits, signed_mul] at h
        have hpos : (unitsPerOne : Int) ≠ 0 := by exact_mod_cast unitsPerOne_pos.ne'
        rw [toInt?_finite, hunits, if_pos (Nat.mul_mod_left _ _), Nat.mul_div_cancel _ unitsPerOne_pos,
          Int.eq_of_mul_eq_mul_right hpos h]

/-- **A number names the 64-bit whole number that it is, and no other.** -/
theorem toInt64?_eq_some_iff_toRat? {x : Binary64} {i : Int64} :
    x.toInt64? = some i ↔ x.toRat? = some (i.toInt : ℚ) :=
  toInt64?_eq_some_iff.trans toInt?_eq_some_iff

end Binary64

/-! ## Decimals -/

namespace Decimal

/-- The rational number that a decimal is. -/
def toRat (d : Decimal) : ℚ := d.digits * (10 : ℚ) ^ (-d.scale)

variable {d : Decimal} {n : Int}

/-- Without places behind the point, zeros are appended. -/
theorem toRat_of_nonpos (h : d.scale ≤ 0) : d.toRat = n ↔ d.digits * 10 ^ (-d.scale).toNat = n := by
  have hscale : -d.scale = ((-d.scale).toNat : Int) := by omega
  rw [toRat, hscale, zpow_natCast]
  exact_mod_cast Iff.rfl

/-- With places behind the point, the digits there are zeros. -/
theorem toRat_of_nonneg (h : 0 ≤ d.scale) : d.toRat = n ↔ d.digits = n * 10 ^ d.scale.toNat := by
  have hscale : d.scale = (d.scale.toNat : Int) := by omega
  have hpos : (10 : ℚ) ^ d.scale.toNat ≠ 0 := pow_ne_zero _ (by norm_num)
  rw [toRat, hscale, zpow_neg, zpow_natCast, ← div_eq_mul_inv, div_eq_iff hpos]
  exact_mod_cast Iff.rfl

/-- With twenty zeros at its end a decimal is beyond 64 bits. -/
theorem toRat_ne_of_scale_lt (hdigits : d.digits ≠ 0) (h : d.scale < -19) (i : Int64) :
    d.toRat ≠ i.toInt := by
  intro heq
  rw [toRat_of_nonpos (by omega)] at heq
  have hpow : 10 ^ 20 ≤ 10 ^ (-d.scale).toNat := Nat.pow_le_pow_right (by decide) (by omega)
  have hsize : 1 * 10 ^ 20 ≤ d.digits.natAbs * 10 ^ (-d.scale).toNat :=
    Nat.mul_le_mul (Int.natAbs_pos.2 hdigits) hpow
  have habs : d.digits.natAbs * 10 ^ (-d.scale).toNat = i.toInt.natAbs := by
    rw [← heq, Int.natAbs_mul, Int.natAbs_pow]
    rfl
  have hrange := inInt64_toInt i
  unfold InInt64 at hrange
  omega

/-- With more places than digits a decimal is smaller than one. -/
theorem toRat_ne_of_length_lt (hdigits : d.digits ≠ 0) (h : d.magnitude.digitText.length < d.scale) :
    d.toRat ≠ n := by
  intro heq
  rw [toRat_of_nonneg (by omega)] at heq
  have hlength : d.magnitude.digitText.length ≤ d.scale.toNat := by omega
  have hsmall : d.digits.natAbs < 10 ^ d.scale.toNat :=
    (Nat.length_toDigits_le_iff (by decide) (by omega)).1 hlength
  rw [heq, Int.natAbs_mul, Int.natAbs_pow] at hsmall
  have hzero : n.natAbs = 0 := by
    by_contra hne
    exact absurd hsmall (Nat.not_lt.2 (Nat.le_mul_of_pos_left _ (Nat.pos_of_ne_zero hne)))
  rw [Int.natAbs_eq_zero.1 hzero, Int.zero_mul] at heq
  exact hdigits heq

/-- **A decimal names the 64-bit whole number that it is, and no other**, with or without a shortcut. -/
theorem toInt64?_eq_some_iff {i : Int64} : d.toInt64? = some i ↔ d.toRat = i.toInt := by
  unfold toInt64?
  -- zero, the two shortcuts, no places, and places with zeros only or not
  split_ifs with hzero hfar hscale hmod
  · rw [toRat, hzero, Int.cast_zero, zero_mul, Option.some_inj, ← Int64.toInt_inj, Int64.toInt_zero]
    exact_mod_cast Iff.rfl
  · refine iff_of_false nofun ?_
    rcases hfar with hlow | hsmall
    · exact toRat_ne_of_scale_lt hzero hlow i
    · exact toRat_ne_of_length_lt hzero hsmall
  · rw [int64?_eq_some_iff, toRat_of_nonpos hscale]
    exact_mod_cast Iff.rfl
  · have hdvd := Int.dvd_of_emod_eq_zero hmod
    have hpos : ((Nat.pow 10 d.scale.toNat : Nat) : Int) ≠ 0 := by
      exact_mod_cast (Nat.pow_pos (by decide : 0 < 10)).ne'
    rw [int64?_eq_some_iff, toRat_of_nonneg (by omega), Int.ediv_eq_iff_eq_mul_left hpos hdvd]
    exact_mod_cast Iff.rfl
  · refine iff_of_false nofun fun heq => hmod ?_
    rw [toRat_of_nonneg (by omega)] at heq
    rw [heq]
    exact_mod_cast Int.mul_emod_left _ _

end Decimal

/-! ## Values -/

/-- What JSON writes for a whole number is the 64-bit number of this size. -/
theorem Json.number_whole_eq_ofInt64_iff {n : Int} {h : IsWhole n} {i : Int64} :
    number (.whole n h) = ofInt64 i ↔ n = i.toInt := by
  constructor
  · intro heq
    injection heq with hnumber
    injection hnumber
  · rintro rfl
    rfl

/-- A float is written as a 64-bit whole number when it equals it. -/
theorem Json.ofFloat_eq_ofInt64_iff {x : Binary64} {i : Int64} :
    ofFloat x = ofInt64 i ↔ x.toInt? = some i.toInt := by
  have hfloat : ofBinary64 x ≠ ofInt64 i := by
    unfold ofBinary64
    split <;> nofun
  unfold ofFloat
  split
  next n hx =>
      rw [hx, Option.some_inj]
      split
      next => exact number_whole_eq_ofInt64_iff
      next hn =>
          refine iff_of_false hfloat fun heq => hn ?_
          rw [heq]
          exact (inInt64_toInt i).isWhole
  next hx =>
      rw [hx]
      exact iff_of_false hfloat nofun

namespace Value

variable {v : Value} {x : Binary64} {i : Int64}

/-- The rational number that a number is; `nan` and the infinities are none. -/
def toRat? : Value → Option ℚ
  | integer i => some i.toInt
  | float x => x.toRat?
  | decimal d => some d.toRat
  | _ => none

/-- The value is a number, and exactly this one. -/
def IsExactly (v : Value) (i : Int64) : Prop := v.toRat? = some (i.toInt : ℚ)

/-- The value is a float that is a whole number out of range, and this is the end of the range that it lies
beyond. -/
def IsBeyond (v : Value) (i : Int64) : Prop :=
  ∃ (x : Binary64) (n : Int), v = float x ∧ x.toRat? = some (n : ℚ) ∧
    (Int64.maxValue.toInt < n ∧ i = .maxValue ∨ n < Int64.minValue.toInt ∧ i = .minValue)

/-- An integer is exactly itself. -/
theorem isExactly_integer {j : Int64} : (integer j).IsExactly i ↔ j = i := by
  rw [IsExactly, toRat?, Option.some_inj, ← Int64.toInt_inj]
  exact_mod_cast Iff.rfl

theorem isExactly_float : (float x).IsExactly i ↔ x.toInt64? = some i :=
  Binary64.toInt64?_eq_some_iff_toRat?.symm

/-- A float that equals a whole number is that number, in range or out of it. -/
theorem toRat?_float_of_toInt? {n : Int} (h : x.toInt? = some n) : (float x).toRat? = some (n : ℚ) :=
  Binary64.toInt?_eq_some_iff.1 h

theorem isBeyond_maxValue {n : Int} (h : x.toInt? = some n) (hn : Int64.maxValue.toInt < n) :
    (float x).IsBeyond Int64.maxValue :=
  ⟨x, n, rfl, Binary64.toInt?_eq_some_iff.1 h, Or.inl ⟨hn, rfl⟩⟩

/-- A decimal is exactly the whole number that it is. -/
theorem isExactly_decimal {d : Decimal} : (decimal d).IsExactly i ↔ d.toInt64? = some i := by
  rw [IsExactly, toRat?, Option.some_inj, Decimal.toInt64?_eq_some_iff]

/-- What is beyond the range is no number in it. -/
theorem IsBeyond.not_isExactly {j : Int64} (h : v.IsBeyond i) : ¬ v.IsExactly j := by
  obtain ⟨x, n, rfl, hx, hbeyond⟩ := h
  intro heq
  rw [IsExactly, toRat?, hx, Option.some_inj] at heq
  have hn : n = j.toInt := by exact_mod_cast heq
  have hlow : Int64.minValue.toInt ≤ j.toInt := j.le_toInt
  have hhigh : j.toInt ≤ Int64.maxValue.toInt := Int.le_of_lt_add_one j.toInt_lt
  omega

/-- A float is narrowed to the number that it is, or to an end of the range. -/
theorem toInt64?_float : (float x).toInt64? = some i ↔ (float x).IsExactly i ∨ (float x).IsBeyond i := by
  have hnarrow : (float x).toInt64? = some i ↔ ∃ n : Int, x.toRat? = some (n : ℚ) ∧ Int64.ofIntClamp n = i := by
    simp only [toInt64?, Option.map_eq_some_iff, Binary64.toInt?_eq_some_iff]
  rw [hnarrow]
  constructor
  · rintro ⟨n, hx, hn⟩
    rcases ofIntClamp_eq_iff.1 hn with rfl | hbeyond
    · exact Or.inl hx
    · exact Or.inr ⟨x, n, rfl, hx, hbeyond⟩
  · rintro (hexact | ⟨y, n, hy, hx, hbeyond⟩)
    · exact ⟨i.toInt, hexact, ofIntClamp_eq_iff.2 (Or.inl rfl)⟩
    · cases hy
      exact ⟨n, hx, ofIntClamp_eq_iff.2 (Or.inr hbeyond)⟩

/-- Only a float is beyond the range. -/
theorem toInt64?_of_not_float (hv : v.isNumber) (h : ∀ x, v ≠ float x) :
    v.toInt64? = some i ↔ v.IsExactly i ∨ v.IsBeyond i := by
  have hbeyond : ¬ v.IsBeyond i := fun ⟨x, _, hx, _⟩ => h x hx
  rw [or_iff_left hbeyond]
  cases v with
  | integer j => rw [isExactly_integer, toInt64?, Option.some_inj]
  | float x => exact absurd rfl (h x)
  | decimal d => rw [isExactly_decimal, toInt64?]
  | _ => cases hv

/-- A binary64 number in its plain form is a 64-bit whole number when it equals one. -/
theorem ofBinary64_eq_integer_iff : ofBinary64 x = integer i ↔ x.toInt64? = some i := by
  cases x with
  | nan | infinite _ => constructor <;> intro h <;> cases h
  | finite negative units fits =>
      rw [ofBinary64_finite rfl]
      cases (Binary64.finite negative units fits).toInt64? with
      | some j => rw [Option.some_inj, integer.injEq]
      | none => constructor <;> intro h <;> cases h

/-- The plain form and the JSON of a number in range are that number. -/
theorem plain_of_isExactly (scope : Scope) (h : v.IsExactly i) :
    v.evaluate scope = integer i ∧ v.toJson = .ok (.ofInt64 i) := by
  cases v with
  | integer j =>
      rw [isExactly_integer.1 h]
      exact ⟨rfl, rfl⟩
  | float x =>
      have hx := isExactly_float.1 h
      rw [evaluate, toJson, ofBinary64_eq_integer_iff.2 hx,
        Json.ofFloat_eq_ofInt64_iff.2 (Binary64.toInt64?_eq_some_iff.1 hx)]
      exact ⟨rfl, rfl⟩
  | decimal d =>
      rw [evaluate, toJson, ofDecimal, Json.ofDecimal, isExactly_decimal.1 h]
      exact ⟨rfl, rfl⟩
  | _ => cases h

/-- The plain form of a number is a whole number only when it is that number; a decimal may have been rounded
to one. -/
theorem isExactly_of_evaluate {scope : Scope} (hv : v.isNumber) (hd : ∀ d, v ≠ decimal d)
    (h : v.evaluate scope = integer i) : v.IsExactly i := by
  cases v with
  | integer j => exact isExactly_integer.2 (integer.inj h)
  | float x =>
      rw [evaluate] at h
      exact isExactly_float.2 (ofBinary64_eq_integer_iff.1 h)
  | decimal d => exact absurd rfl (hd d)
  | _ => cases hv

/-- The same for JSON. -/
theorem isExactly_of_toJson (hv : v.isNumber) (hd : ∀ d, v ≠ decimal d) (h : v.toJson = .ok (.ofInt64 i)) :
    v.IsExactly i := by
  cases v with
  | integer j =>
      have hj := Json.number_whole_eq_ofInt64_iff.1 (Except.ok.inj h)
      exact isExactly_integer.2 (Int64.toInt_inj.1 hj)
  | float x =>
      have hx := Json.ofFloat_eq_ofInt64_iff.1 (Except.ok.inj h)
      exact isExactly_float.2 (Binary64.toInt64?_eq_some_iff.2 hx)
  | decimal d => exact absurd rfl (hd d)
  | _ => cases hv

/-- **The view of a number as a 64-bit whole number is exact, but for whole floats out of range.**  Those
give the end of the range that they lie beyond, and are no number in it.  The stricter view of a float, the
plain form and the JSON name the number that it is, and no other. -/
theorem toInt64?_iff_isExactly_or_isBeyond (hv : v.isNumber) (i : Int64) (scope : Scope) :
    (v.toInt64? = some i ↔ v.IsExactly i ∨ v.IsBeyond i) ∧
    (v.IsBeyond i → ∀ j, ¬ v.IsExactly j) ∧
    (∀ x, v = float x → (x.toInt64? = some i ↔ v.IsExactly i)) ∧
    (v.IsExactly i → v.evaluate scope = integer i ∧ v.toJson = .ok (.ofInt64 i)) ∧
    ((∀ d, v ≠ decimal d) → v.evaluate scope = integer i ∨ v.toJson = .ok (.ofInt64 i) → v.IsExactly i) := by
  refine ⟨?_, fun h j => h.not_isExactly, ?_, plain_of_isExactly scope, fun hd h => ?_⟩
  · by_cases hfloat : ∃ x, v = float x
    · obtain ⟨x, rfl⟩ := hfloat
      exact toInt64?_float
    · exact toInt64?_of_not_float hv (not_exists.1 hfloat)
  · rintro x rfl
    exact isExactly_float.symm
  · exact h.elim (isExactly_of_evaluate hv hd) (isExactly_of_toJson hv hd)

/-- The least number of 64 bits is a float, and in range. -/
theorem toInt64?_minValue :
    let x := Binary64.ofInt Int64.minValue.toInt
    let scope : Scope := default
    (float x).isNumber ∧ (float x).toInt64? = some Int64.minValue ∧ x.toInt64? = some Int64.minValue ∧
      (float x).evaluate scope = integer Int64.minValue ∧ (float x).toJson = .ok (.ofInt64 Int64.minValue) := by
  intro x scope
  have hexact : (float x).IsExactly Int64.minValue :=
    toRat?_float_of_toInt? (Binary64.toInt?_ofInt (by decide +kernel))
  obtain ⟨hview, -, hstrict, hplain, -⟩ :=
    toInt64?_iff_isExactly_or_isBeyond (v := float x) rfl Int64.minValue scope
  exact ⟨rfl, hview.2 (Or.inl hexact), (hstrict x rfl).2 hexact, hplain hexact⟩

/-- `2^63` is a float, and taken for the number before it. -/
theorem toInt64?_twoPow63 :
    let x := Binary64.ofInt (2 ^ 63)
    (float x).toRat? = some ((2 ^ 63 : Int) : ℚ) ∧ (float x).toInt64? = some Int64.maxValue ∧ x.toInt64? = none ∧
      ¬ ∀ (v : Value) (i : Int64), v.isNumber → (v.toInt64? = some i ↔ v.IsExactly i) := by
  intro x
  have hx : x.toInt? = some (2 ^ 63) := Binary64.toInt?_ofInt (by decide +kernel)
  have hbeyond : (float x).IsBeyond Int64.maxValue := isBeyond_maxValue hx (by decide)
  have hview : (float x).toInt64? = some Int64.maxValue := toInt64?_float.2 (Or.inr hbeyond)
  refine ⟨toRat?_float_of_toInt? hx, hview, ?_, fun hclaim => hbeyond.not_isExactly ((hclaim _ _ rfl).1 hview)⟩
  rw [Binary64.toInt64?, hx]
  rfl

end Value

end Latent

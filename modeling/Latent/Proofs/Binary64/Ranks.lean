import Latent.Calendar.Duration
import Latent.Proofs.Binary64.Exact

/-!
# Numbers of one rank

The rank of a number is its place in the order.  Numbers of one rank are one number, but for the two
zeros; so a function of numbers that does not tell the zeros apart is a function of their ranks
(`view_of_rank?`).  Sums, products and durations are.
-/

namespace Latent

namespace Binary64

/-! ## Ranks -/

/-- Numbers of one size and sign are equal, and zero has both signs. -/
theorem signed_eq_signed_iff {s t : Bool} {m n : Nat} :
    signed s m = signed t n ↔ m = n ∧ (s = t ∨ m = 0) := by
  cases s <;> cases t <;> simp [signed] <;> omega

/-- Numbers of one rank are one number, or zeros. -/
theorem eq_or_zero_of_rank? {x y : Binary64} (h : x.rank? = y.rank?) :
    x = y ∨ ∃ s t, x = zero s ∧ y = zero t := by
  cases x with
  | nan =>
      cases y with
      | nan => exact .inl rfl
      | infinite _ | finite _ _ _ => cases h
  | infinite s =>
      cases y with
      | nan => cases h
      | infinite t =>
          obtain ⟨_, rfl | hzero⟩ := signed_eq_signed_iff.1 (Option.some.inj h)
          · exact .inl rfl
          · exact absurd hzero unitLimit_pos.ne'
      | finite t n hn =>
          -- no finite number has the rank of an infinity, which is past the limit
          obtain ⟨heq, _⟩ := signed_eq_signed_iff.1 (Option.some.inj h)
          exact absurd heq.symm hn.1.ne
  | finite s m hm =>
      cases y with
      | nan => cases h
      | infinite t =>
          obtain ⟨heq, _⟩ := signed_eq_signed_iff.1 (Option.some.inj h)
          exact absurd heq hm.1.ne
      | finite t n hn =>
          obtain ⟨rfl, rfl | rfl⟩ := signed_eq_signed_iff.1 (Option.some.inj h)
          · exact .inl rfl
          · exact .inr ⟨s, t, rfl, rfl⟩

/-- **What does not tell the zeros apart depends on the rank only.** -/
theorem view_of_rank? {α : Type} (view : Binary64 → α) (hzero : view (zero true) = view (zero false))
    {x y : Binary64} (h : x.rank? = y.rank?) : view x = view y := by
  rcases eq_or_zero_of_rank? h with rfl | ⟨s, t, rfl, rfl⟩
  · rfl
  · cases s <;> cases t <;> simp only [hzero]

/-- Equal numbers have one rank, and `nan` equals nothing. -/
theorem eq_iff_rank? {x y : Binary64} : x.eq y ↔ x.rank? = y.rank? ∧ x.isNan = false := by
  cases x <;> cases y <;> simp [eq, compare, rank?, isNan]

/-- Both zeros are the whole number zero. -/
theorem toInt?_zero (negative : Bool) : (zero negative).toInt? = some 0 := by
  rw [zero, toInt?_finite, if_pos (Nat.zero_mod _), Nat.zero_div]
  cases negative <;> rfl

/-- A whole number has the rank of the numbers that equal it. -/
theorem rank?_ofInt {x : Binary64} {i : Int} (h : x.toInt? = some i) : (ofInt i).rank? = x.rank? := by
  by_cases hzero : x = zero true
  · subst hzero
    have hi : i = 0 := Option.some.inj (h.symm.trans (toInt?_zero true))
    rw [hi, ofInt_zero]
    rfl
  · rw [ofInt_of_toInt? h hzero]

/-! ## Numbers that have a place -/

/-- A number has a place in the order unless it is `nan`. -/
theorem exists_rank? {x : Binary64} (h : x.isNan = false) : ∃ place, x.rank? = some place := by
  cases x with
  | nan => cases h
  | infinite _ | finite _ _ _ => exact ⟨_, rfl⟩

/-- A quotient is rounded to a number. -/
theorem isNan_ofQuotient (negative : Bool) (num den : Nat) :
    (ofQuotient negative num den).isNan = false := by
  unfold ofQuotient ofUnits
  dsimp only
  split <;> rfl

theorem isNan_ofInt (i : Int) : (ofInt i).isNan = false := isNan_ofQuotient _ _ _

/-- A quotient by an exact positive number is `nan` for `nan` only. -/
theorem isNan_div_ofInt {x : Binary64} (hx : x.isNan = false) {i : Int} (hi : IsExact i)
    (hpos : 0 < i) : (x / ofInt i).isNan = false := by
  have hunits : i.natAbs * unitsPerOne ≠ 0 := Nat.mul_ne_zero (by omega) unitsPerOne_pos.ne'
  rw [ofInt_of_isExact hi]
  cases x with
  | nan => cases hx
  | infinite _ => rfl
  | finite s u hu =>
      rw [div_finite, if_neg hunits]
      exact isNan_ofQuotient _ _ _

/-! ## Operations -/

variable {x x' y y' : Binary64}

/-- Numbers of one place are less than the same numbers. -/
theorem lt_congr (hx : x.rank? = x'.rank?) (hy : y.rank? = y'.rank?) : x.lt y = x'.lt y' := by
  rw [lt, lt, compare, compare, hx, hy]

/-- So are they with equality included. -/
theorem le_congr (hx : x.rank? = x'.rank?) (hy : y.rank? = y'.rank?) : x.le y = x'.le y' := by
  rw [le, le, compare, compare, hx, hy]

/-- And they are equal to the same numbers. -/
theorem eq_congr (hx : x.rank? = x'.rank?) (hy : y.rank? = y'.rank?) : x.eq y = x'.eq y' := by
  rw [eq, eq, compare, compare, hx, hy]

/-- Exact whole numbers are in the order of whole numbers. -/
theorem rank?_of_isExact {i : Int} (h : IsExact i) : (ofInt i).rank? = some (i * unitsPerOne) := by
  rw [ofInt_of_isExact h]
  exact congrArg some (signed_mul_unitsPerOne i)

/-- Numbers are compared by their places. -/
theorem lt_of_rank? {x y : Binary64} {p q : Int} (hx : x.rank? = some p) (hy : y.rank? = some q) :
    x.lt y = decide (p < q) := by
  rw [lt, compare, hx, hy]

/-- So are they with equality included. -/
theorem le_of_rank? {x y : Binary64} {p q : Int} (hx : x.rank? = some p) (hy : y.rank? = some q) :
    x.le y = decide (p ≤ q) := by
  rw [le, compare, hx, hy]

/-- Exact whole numbers are compared as whole numbers. -/
theorem lt_ofInt {i j : Int} (hi : IsExact i) (hj : IsExact j) : (ofInt i).lt (ofInt j) = decide (i < j) := by
  have hpos : (0 : Int) < unitsPerOne := by exact_mod_cast unitsPerOne_pos
  rw [lt_of_rank? (rank?_of_isExact hi) (rank?_of_isExact hj), decide_eq_decide]
  exact mul_lt_mul_iff_left₀ hpos

/-- So are they with equality included. -/
theorem le_ofInt {i j : Int} (hi : IsExact i) (hj : IsExact j) : (ofInt i).le (ofInt j) = decide (i ≤ j) := by
  have hpos : (0 : Int) < unitsPerOne := by exact_mod_cast unitsPerOne_pos
  rw [le_of_rank? (rank?_of_isExact hi) (rank?_of_isExact hj), decide_eq_decide]
  exact mul_le_mul_iff_left₀ hpos

/-- Numbers of one place are truncated to one whole number. -/
theorem truncate?_congr (h : x.rank? = x'.rank?) : x.truncate? = x'.truncate? := by
  refine view_of_rank? truncate? ?_ h
  rw [zero, zero, truncate?_finite, truncate?_finite, Nat.zero_div]
  rfl

/-- Either zero is rounded to zero. -/
theorem nearestInt?_zero (negative : Bool) : (zero negative).nearestInt? = some 0 := by
  have hpos := unitsPerOne_pos
  rw [zero, nearestInt?_finite, Nat.div_eq_of_lt (by omega)]
  cases negative <;> rfl

/-- A sum with a zero does not depend on its sign. -/
theorem rank?_zero_add (y : Binary64) : (zero true + y).rank? = (zero false + y).rank? := by
  cases y with
  | nan | infinite _ => rfl
  | finite t v hv =>
      have hsigned : signed true 0 = signed false 0 := rfl
      rw [zero, zero, add_finite, add_finite, hsigned]
      split
      · cases t <;> rfl
      · rfl

/-- Either zero adds nothing. -/
theorem rank?_add_zero (x : Binary64) : (x + zero true).rank? = (x + zero false).rank? := by
  cases x with
  | nan | infinite _ => rfl
  | finite s u hu =>
      have hsigned : signed true 0 = signed false 0 := rfl
      rw [zero, zero, add_finite, add_finite, hsigned]
      split
      · cases s <;> rfl
      · rfl

/-- Sums of numbers of one place have one place: the sign of a zero is lost in a sum, or stays a
zero. -/
theorem add_congr (hx : x.rank? = x'.rank?) (hy : y.rank? = y'.rank?) :
    (x + y).rank? = (x' + y').rank? :=
  calc (x + y).rank? = (x' + y).rank? := view_of_rank? (fun x => (x + y).rank?) (rank?_zero_add y) hx
    _ = (x' + y').rank? := view_of_rank? (fun y => (x' + y).rank?) (rank?_add_zero x') hy

/-- A product with a zero has the rank of zero, whatever its sign. -/
theorem rank?_zero_mul (y : Binary64) : (zero true * y).rank? = (zero false * y).rank? := by
  cases y with
  | nan | infinite _ => rfl
  | finite t v hv =>
      rw [zero, zero, mul_finite, mul_finite, Nat.zero_mul, ofQuotient_zero _ unitsPerOne_pos,
        ofQuotient_zero _ unitsPerOne_pos]
      cases t <;> rfl

/-- Products of numbers of one place have one place. -/
theorem mul_congr (hx : x.rank? = x'.rank?) (y : Binary64) : (x * y).rank? = (x' * y).rank? :=
  view_of_rank? (fun x => (x * y).rank?) (rank?_zero_mul y) hx

end Binary64

/-- A duration depends on the ranks of its components only. -/
theorem Duration.ofComponents?_congr {days days' seconds seconds' micros micros' : Binary64}
    (hdays : days.rank? = days'.rank?) (hseconds : seconds.rank? = seconds'.rank?)
    (hmicros : micros.rank? = micros'.rank?) :
    ofComponents? days seconds micros = ofComponents? days' seconds' micros' := by
  have htotal := Binary64.add_congr (Binary64.add_congr (Binary64.mul_congr hdays 86400000000)
    (Binary64.mul_congr hseconds 1000000)) hmicros
  refine Binary64.view_of_rank? (fun total => if total.belowPowerOfTwo 63 then
    total.nearestInt?.bind fun n => ofNanos? (n * 1000) else none) ?_ htotal
  rw [Binary64.nearestInt?_zero, Binary64.nearestInt?_zero, Binary64.zero, Binary64.zero,
    Binary64.belowPowerOfTwo_finite, Binary64.belowPowerOfTwo_finite]

end Latent

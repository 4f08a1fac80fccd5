import Latent.Proofs.Binary64.Separation

/-!
# Numbers of 64 bits that are looked at as binary64 numbers

A 64-bit number has up to 63 bits and a binary64 number 53, so that a large number is rounded when it is looked
at in binary64 (`nearestWord`).  Numbers up to `2^53` are kept, and a larger one is not rounded to a small one.
-/

namespace Latent

namespace Binary64

/-- The distance to the next count is no longer than the count itself. -/
theorem gap_le_self {units : Nat} (h : 0 < units) : gap units ≤ units := by
  rw [gap_eq]
  exact (Nat.pow_le_pow_right Nat.two_pos (Nat.sub_le _ _)).trans (Nat.log2_self_le h.ne')

/-- The nearest number of one that is larger than `2^53` is half as large at least. -/
theorem le_natAbs_of_truncate?_ofInt {i n : Int} (hi : 2 ^ 53 < i.natAbs)
    (h : (ofInt i).truncate? = some n) : 2 ^ 52 ≤ n.natAbs := by
  rw [ofInt, ofQuotient_eq_ofUnits, ofUnits] at h
  split at h
  · rename_i fits
    rw [truncate?_finite] at h
    cases h
    have hpos : 0 < i.natAbs * unitsPerOne := Nat.mul_pos (by omega) unitsPerOne_pos
    have hround := (round_bounds (i.natAbs * unitsPerOne) Nat.one_pos).2
    have hgap := gap_le_self hpos
    have hsize : 2 ^ 53 * unitsPerOne ≤ i.natAbs * unitsPerOne := Nat.mul_le_mul_right _ hi.le
    rw [Nat.div_one] at hround
    rw [natAbs_signed, Nat.le_div_iff_mul_le unitsPerOne_pos]
    omega
  · cases h

end Binary64

/-- The number of 64 bits that is read from the binary64 number nearest to one: the largest stands for `2^63`,
which is out of range. -/
def nearestWord (i : Int64) : Int64 := Int64.ofIntClamp ((Binary64.ofInt i.toInt).truncate?.getD 0)

/-- A 64-bit number has a whole part in binary64. -/
theorem exists_truncate?_ofInt (i : Int64) : ∃ n, (Binary64.ofInt i.toInt).truncate? = some n := by
  have hfinite := Binary64.isFinite_ofInt64 i
  cases hx : Binary64.ofInt i.toInt with
  | finite negative units fits => exact ⟨_, Binary64.truncate?_finite negative units fits⟩
  | nan | infinite _ =>
      rw [hx] at hfinite
      cases hfinite

/-- What binary64 holds is kept. -/
theorem nearestWord_of_isExact {i : Int64} (h : Binary64.IsExact i.toInt) : nearestWord i = i := by
  obtain ⟨hlow, hhigh⟩ := inInt64_toInt i
  apply Int64.toInt_inj.1
  rw [nearestWord, Binary64.truncate?_ofInt h, Option.getD_some]
  exact Int64.toInt_ofIntClamp hlow (Int.le_of_lt_add_one hhigh)

/-- Up to `2^53` a word is its own nearest one. -/
theorem nearestWord_of_le {i : Int64} (h : i.toInt.natAbs ≤ 2 ^ 53) : nearestWord i = i :=
  nearestWord_of_isExact (Binary64.isExact_of_le h)

/-- A large number stays large. -/
theorem le_natAbs_nearestWord {i : Int64} (h : 2 ^ 53 < i.toInt.natAbs) :
    2 ^ 52 ≤ (nearestWord i).toInt.natAbs := by
  obtain ⟨n, hn⟩ := exists_truncate?_ofInt i
  have hlarge := Binary64.le_natAbs_of_truncate?_ofInt h hn
  rw [nearestWord, hn, Option.getD_some]
  -- out of range it is an end of the range
  by_cases hlow : Int64.minValue.toInt ≤ n
  · by_cases hhigh : n ≤ Int64.maxValue.toInt
    · rwa [Int64.toInt_ofIntClamp hlow hhigh]
    · rw [Int64.ofIntClamp, dif_pos hlow, dif_neg hhigh]
      decide
  · rw [Int64.ofIntClamp, dif_neg hlow]
    decide

end Latent

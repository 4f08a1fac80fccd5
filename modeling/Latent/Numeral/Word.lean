/-!
# Whole numbers of 64 bits

The range of an `Int64`, and the partial way back from an `Int`, which refuses what lies outside.
-/

namespace Latent

/-- Between `-2^63` and `2^63 - 1`. -/
def InInt64 (i : Int) : Prop := -9223372036854775808 ≤ i ∧ i < 9223372036854775808

instance (i : Int) : Decidable (InInt64 i) := inferInstanceAs (Decidable (_ ∧ _))

/-- The 64-bit whole number equal to `i`, when `i` is in range. -/
def int64? (i : Int) : Option Int64 := if InInt64 i then some (Int64.ofInt i) else none

/-- A 64-bit whole number is in range. -/
theorem inInt64_toInt (i : Int64) : InInt64 i.toInt :=
  ⟨i.le_toInt, i.toInt_lt⟩

/-- `int64?` keeps the number. -/
theorem toInt_of_int64? {i : Int} {j : Int64} (h : int64? i = some j) : j.toInt = i := by
  unfold int64? at h
  split at h
  · rename_i hi
    cases h
    exact Int64.toInt_ofInt_of_le hi.1 hi.2
  · cases h

/-- `int64?` succeeds on every 64-bit whole number. -/
theorem int64?_toInt (i : Int64) : int64? i.toInt = some i := by
  rw [int64?, if_pos (inInt64_toInt i), Int64.ofInt_toInt]

end Latent

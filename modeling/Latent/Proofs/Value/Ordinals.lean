import Latent.Proofs.Binary64.Separation
import Latent.Proofs.Calendar.MicroNumber
import Latent.Proofs.Value.Sameness

/-!
# Ordinals and equality

The order compares ordinals, which are binary64 numbers; equality compares two decimals, and two
date-times, by what they are.  So values may be *blurred*: different, with one ordinal.  Of other numbers
equality is that of the ordinals (`looselyEqual_eq`).  Date-times of whole microseconds near 1970, and
decimals of moderate size, are not blurred, because rounding keeps them apart.
-/

namespace Latent

/-! ## Date-times -/

namespace DateTime

/-- Whole microseconds outside a leap second, less than `2^43` milliseconds from 1970-01-01. -/
def IsNear (t : DateTime) : Prop := t.time.IsWholeMicro ∧ t.microNumber.natAbs < 2 ^ 43 * 1000

instance (t : DateTime) : Decidable t.IsNear := inferInstanceAs (Decidable (_ ∧ _))

/-- The milliseconds of a date-time are a number. -/
theorem isNan_millis (t : DateTime) : t.millis.isNan = false :=
  Binary64.isNan_div_ofInt (Binary64.isNan_ofInt _) (Binary64.isExact_of_le (by decide)) (by decide)

/-- Up to `2^53` microseconds, only the division by a thousand is rounded. -/
theorem millis_eq {t : DateTime} (h : t.microNumber.natAbs ≤ 2 ^ 53) : t.millis
    = .ofQuotient (decide (t.microNumber < 0)) (t.microNumber.natAbs * Binary64.unitsPerOne) 1000 :=
  Binary64.ofInt_div (j := 1000) (Binary64.isExact_of_le h) (Binary64.isExact_of_le (by decide))
    (by decide)

/-- Microseconds near 1970-01-01 lie more than a gap apart. -/
theorem keepsApart_thousand : Binary64.KeepsApart (2 ^ 43 * 1000 - 1) 1000 :=
  ⟨by decide, by decide +kernel, by decide +kernel⟩

/-- **Near 1970-01-01 the milliseconds tell whole microseconds apart.** -/
theorem eq_of_millis {s t : DateTime} (hs : s.IsNear) (ht : t.IsNear)
    (h : s.millis.rank? = t.millis.rank?) : s = t := by
  obtain ⟨hwhole, hmicros⟩ := hs
  obtain ⟨hwhole', hmicros'⟩ := ht
  have hnumber : s.microNumber = t.microNumber := by
    rw [millis_eq (by omega), millis_eq (by omega)] at h
    exact keepsApart_thousand.eq_of_rank? (by omega) (by omega) h
  have hsome := ofMicroNumber?_microNumber hwhole
  rw [hnumber, ofMicroNumber?_microNumber hwhole'] at hsome
  exact (Option.some.inj hsome).symm

end DateTime

/-! ## Decimals -/

namespace Decimal

/-- A decimal has a binary64 number. -/
theorem isNan_toBinary64 (d : Decimal) : d.toBinary64.isNan = false := by
  rw [toBinary64, Binary64.ofDecimal_eq_ofQuotient]
  exact Binary64.isNan_ofQuotient _ _ _

/-- A zero at the end may stand in the scale. -/
theorem reduce_mul_ten (digits scale : Int) :
    reduce ⟨digits * 10, scale⟩ = reduce ⟨digits, scale - 1⟩ := by
  unfold reduce
  by_cases hzero : digits = 0
  · rw [hzero, Int.zero_mul]
    rfl
  · have hlength : (magnitude ⟨digits * 10, scale⟩).digitText.length
        = (magnitude ⟨digits, scale - 1⟩).digitText.length + 1 := by
      have habs : (digits * 10).natAbs = digits.natAbs * 10 := Int.natAbs_mul digits 10
      unfold magnitude Scientific.digitText
      dsimp only
      rw [habs, Nat.toDigits_of_base_le (by decide) (by omega), List.length_append,
        Nat.mul_div_cancel _ (by decide), List.length_singleton]
    rw [if_neg (by dsimp only; omega), if_neg hzero, hlength, dropZeros]
    dsimp only
    rw [if_pos (by omega), Int.mul_ediv_cancel _ (by decide)]

/-- The decimal with more places written out. -/
def extend (d : Decimal) (zeros : Nat) : Decimal := ⟨d.digits * 10 ^ zeros, d.scale + zeros⟩

/-- Zeros at the end change nothing. -/
theorem reduce_extend (d : Decimal) (zeros : Nat) : (d.extend zeros).reduce = d.reduce := by
  induction zeros with
  | zero => simp [extend]
  | succ zeros ih =>
      have hdigits : d.digits * 10 ^ (zeros + 1) = d.digits * 10 ^ zeros * 10 := by ring
      have hscale : d.scale + (zeros + 1 : Nat) - 1 = d.scale + zeros := by push_cast; ring
      rw [← ih, extend, hdigits, reduce_mul_ten, hscale]
      rfl

/-- At most so many places after the point, and fewer than `2^52` of the last of them. -/
def IsFine (places : Nat) (d : Decimal) : Prop :=
  d.scale ≤ places ∧ (d.digits * 10 ^ (places - d.scale).toNat).natAbs < 2 ^ 52

instance (places : Nat) (d : Decimal) : Decidable (d.IsFine places) :=
  inferInstanceAs (Decidable (_ ∧ _))

/-- The nearest number of a decimal that has its last digit behind the point, or in front of it. -/
theorem toBinary64_of_places (digits : Int) (places : Nat) : toBinary64 ⟨digits, places⟩
    = .ofQuotient (decide (digits < 0)) (digits.natAbs * Binary64.unitsPerOne) (10 ^ places) := by
  rw [toBinary64, Binary64.ofDecimal_eq_ofQuotient, magnitude]
  dsimp only
  rcases Nat.eq_zero_or_pos places with rfl | hpos
  · rw [Binary64.unitsOf_of_nonneg (by decide)]
    simp
  · rw [Binary64.unitsOf_of_neg (by omega), Int.neg_neg, Int.toNat_natCast]

/-- **Decimals of moderate size are told apart by their nearest numbers.** -/
theorem sameValue_of_toBinary64 {d e : Decimal} {places : Nat} (hplaces : places ≤ 323)
    (hd : d.IsFine places) (he : e.IsFine places)
    (h : d.toBinary64.rank? = e.toBinary64.rank?) : d.sameValue e := by
  -- written with all places, both are multiples of the last of them
  have hextend {d : Decimal} (hd : d.IsFine places) : d.extend (places - d.scale).toNat
      = ⟨d.digits * 10 ^ (places - d.scale).toNat, places⟩ := by
    have hscale : d.scale + (places - d.scale).toNat = places := by have := hd.1; omega
    rw [extend, hscale]
  have hkeeps : Binary64.KeepsApart (2 ^ 52 - 1) (10 ^ places) := by
    refine Binary64.keepsApart_of_lt (Nat.pow_pos (by decide)) ?_ (by decide)
    exact (Nat.pow_le_pow_right (by decide) hplaces).trans_lt (by decide +kernel)
  rw [← toBinary64_congr (d.reduce_extend _), ← toBinary64_congr (e.reduce_extend _), hextend hd,
    hextend he, toBinary64_of_places, toBinary64_of_places] at h
  have hdigits := hkeeps.eq_of_rank? (by have := hd.2; omega) (by have := he.2; omega) h
  refine decide_eq_true ?_
  rw [← d.reduce_extend (places - d.scale).toNat, ← e.reduce_extend (places - e.scale).toNat,
    hextend hd, hextend he, hdigits]

end Decimal

/-! ## Blurred values -/

namespace Value

variable {a b : Value}

/-- Two decimals, or two date-times, that differ and have one ordinal. -/
def Blurred : Value → Value → Prop
  | decimal d, decimal e => d.sameValue e = false ∧ d.toBinary64.eq e.toBinary64
  | dateTime s, dateTime t => s ≠ t ∧ s.millis.eq t.millis
  | _, _ => False

/-- Only decimals are blurred, and date-times. -/
theorem exists_of_blurred (h : Blurred a b) :
    (∃ d e, a = decimal d ∧ b = decimal e) ∨ ∃ s t, a = dateTime s ∧ b = dateTime t := by
  unfold Blurred at h
  split at h
  · exact .inl ⟨_, _, rfl, rfl⟩
  · exact .inr ⟨_, _, rfl, rfl⟩
  · exact absurd h id

/-- A number that has a place among the binary64 numbers: not `nan`, and no decimal beyond their range. -/
def isPlaced : Value → Bool
  | integer _ => true
  | float x => !x.isNan
  | decimal d => d.toBinary64.isFinite
  | _ => false

/-- Two numbers that have a place, or two date-times. -/
def AreComparable (a b : Value) : Prop :=
  a.isPlaced ∧ b.isPlaced ∨ ∃ s t, a = dateTime s ∧ b = dateTime t

/-- The ordinal of a number that has a place. -/
theorem exists_ordinal_of_isPlaced (h : a.isPlaced) :
    ∃ x, a.ordinal? = some x ∧ a.toBinary64? = some x ∧ x.isNan = false := by
  cases a with
  | integer i => exact ⟨_, rfl, rfl, Binary64.isNan_ofInt _⟩
  | float x => exact ⟨x, rfl, rfl, by simpa [isPlaced] using h⟩
  | decimal d => exact ⟨_, rfl, rfl, d.isNan_toBinary64⟩
  | _ => cases h

theorem isLeaf_of_isPlaced (h : a.isPlaced) : a.isLeaf := by
  cases a with
  | list _ | map _ | node _ _ => cases h
  | _ => rfl

/-- Numbers are equal when their ordinals are, unless both are decimals. -/
theorem looselyEqual_eq {x y : Binary64} (ha : a.isPlaced) (hb : b.isPlaced)
    (hx : a.toBinary64? = some x) (hy : b.toBinary64? = some y)
    (h : ¬∃ d e, a = decimal d ∧ b = decimal e) : a.looselyEqual b = x.eq y := by
  rw [looselyEqual_of_isLeaf (.inl (isLeaf_of_isPlaced ha))]
  -- the arms above the one for two views are for dates, for date-times and for two decimals
  cases a with
  | integer _ | float _ =>
      cases b with
      | integer _ | float _ | decimal _ =>
          obtain rfl := Option.some.inj hx
          obtain rfl := Option.some.inj hy
          rfl
      | _ => cases hb
  | decimal d =>
      cases b with
      | integer _ | float _ =>
          obtain rfl := Option.some.inj hx
          obtain rfl := Option.some.inj hy
          rfl
      | decimal e => exact absurd ⟨d, e, rfl, rfl⟩ h
      | _ => cases hb
  | _ => cases ha

/-- Two values and their ordinals: equal values have one ordinal, and the others that have one are blurred. -/
structure HaveOrdinals (a b : Value) (x y : Binary64) : Prop where
  left : a.ordinal? = some x
  right : b.ordinal? = some y
  left_isNan : x.isNan = false
  right_isNan : y.isNan = false
  eq_of_equal : a.looselyEqual b → x.eq y
  blurred_iff : Blurred a b ↔ a.looselyEqual b = false ∧ x.eq y

/-- Decimals are compared by their binary64 numbers. -/
theorem haveOrdinals_decimal (d e : Decimal) :
    HaveOrdinals (decimal d) (decimal e) d.toBinary64 e.toBinary64 := by
  have hequal : (decimal d).looselyEqual (decimal e) = d.sameValue e :=
    looselyEqual_of_isLeaf (.inl rfl)
  refine ⟨rfl, rfl, d.isNan_toBinary64, e.isNan_toBinary64, fun hsame => ?_, by rw [hequal]; rfl⟩
  rw [hequal] at hsame
  refine Binary64.eq_iff_rank?.2 ⟨?_, d.isNan_toBinary64⟩
  rw [Decimal.toBinary64_congr (of_decide_eq_true hsame)]

/-- Date-times are compared by their milliseconds. -/
theorem haveOrdinals_dateTime (s t : DateTime) :
    HaveOrdinals (dateTime s) (dateTime t) s.millis t.millis := by
  have hequal : (dateTime s).looselyEqual (dateTime t) = decide (s = t) :=
    looselyEqual_of_isLeaf (.inl rfl)
  refine ⟨rfl, rfl, s.isNan_millis, t.isNan_millis, fun hsame => ?_, ?_⟩
  · rw [hequal, decide_eq_true_eq] at hsame
    exact Binary64.eq_iff_rank?.2 ⟨by rw [hsame], s.isNan_millis⟩
  · rw [hequal, decide_eq_false_iff_not]
    rfl

/-- Values that have a place have ordinals. -/
theorem exists_haveOrdinals_of_isPlaced (ha : a.isPlaced) (hb : b.isPlaced) :
    ∃ x y, HaveOrdinals a b x y := by
  by_cases hdecimals : ∃ d e, a = decimal d ∧ b = decimal e
  · obtain ⟨d, e, rfl, rfl⟩ := hdecimals
    exact ⟨_, _, haveOrdinals_decimal d e⟩
  · obtain ⟨x, hx, hx', hxnan⟩ := exists_ordinal_of_isPlaced ha
    obtain ⟨y, hy, hy', hynan⟩ := exists_ordinal_of_isPlaced hb
    have hequal := looselyEqual_eq ha hb hx' hy' hdecimals
    refine ⟨x, y, hx, hy, hxnan, hynan, fun h => hequal ▸ h, iff_of_false (fun hblurred => ?_) ?_⟩
    · rcases exists_of_blurred hblurred with hboth | ⟨s, t, rfl, rfl⟩
      · exact hdecimals hboth
      · cases ha
    · rintro ⟨hdiffer, heq⟩
      rw [← hequal, hdiffer] at heq
      cases heq

/-- **Comparable values have ordinals.** -/
theorem exists_haveOrdinals (h : AreComparable a b) : ∃ x y, HaveOrdinals a b x y := by
  rcases h with ⟨ha, hb⟩ | ⟨s, t, rfl, rfl⟩
  · exact exists_haveOrdinals_of_isPlaced ha hb
  · exact ⟨_, _, haveOrdinals_dateTime s t⟩

/-- Two date-times near 1970-01-01, or two decimals of moderate size with at most 323 places. -/
def AreSpaced : Value → Value → Prop
  | decimal d, decimal e => ∃ places ≤ 323, d.IsFine places ∧ e.IsFine places
  | dateTime s, dateTime t => s.IsNear ∧ t.IsNear
  | _, _ => True

/-- Rounding blurs nothing that is so spaced. -/
theorem not_blurred (h : AreSpaced a b) : ¬Blurred a b := by
  intro hblurred
  unfold Blurred at hblurred
  split at hblurred
  · obtain ⟨hdiffer, heq⟩ := hblurred
    obtain ⟨places, hplaces, hd, he⟩ := h
    have hsame := Decimal.sameValue_of_toBinary64 hplaces hd he (Binary64.eq_iff_rank?.1 heq).1
    rw [hdiffer] at hsame
    cases hsame
  · obtain ⟨hdiffer, heq⟩ := hblurred
    exact hdiffer (DateTime.eq_of_millis h.1 h.2 (Binary64.eq_iff_rank?.1 heq).1)
  · exact absurd hblurred id

end Value

end Latent

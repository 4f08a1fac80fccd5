import Latent.Proofs.Binary64.ReadBack
import Latent.Proofs.Numeral.Texts
import Latent.Proofs.Value.PlainForm
import Latent.Syntax.Reader
import Latent.Value.Text

/-!
# Canonical numerals

The canonical text of a number is an optional minus sign and a numeral.  The numeral of a 64-bit whole
number is read as that number, and the numeral of a finite binary64 number as its plain form: what is
written without a point is whole, and the shortest digits of any other number read back.
-/

namespace Latent

/-! ## The form of a canonical text -/

/-- Digits, or digits before and after a point. -/
inductive IsNumeral : List Char → Prop where
  | whole (text : List Char) (h : AllDigits text) (hne : text ≠ []) : IsNumeral text
  | point (whole fraction : List Char) (h : AllDigits whole) (hne : whole ≠ [])
      (hfraction : AllDigits fraction) : IsNumeral (whole ++ '.' :: fraction)

theorem isNumeral_toDigits (n : Nat) : IsNumeral (Nat.toDigits 10 n) :=
  .whole _ (allDigits_toDigits n) Nat.toDigits_ne_nil

/-- A numeral begins with a digit. -/
theorem IsNumeral.exists_cons {text : List Char} (h : IsNumeral text) :
    ∃ c rest, text = c :: rest ∧ c.isDigit = true := by
  cases h with
  | whole _ h hne =>
      obtain ⟨c, rest, rfl⟩ := List.exists_cons_of_ne_nil hne
      exact ⟨c, rest, rfl, h c List.mem_cons_self⟩
  | point whole fraction h hne _ =>
      obtain ⟨c, rest, rfl⟩ := List.exists_cons_of_ne_nil hne
      exact ⟨c, rest ++ '.' :: fraction, rfl, h c List.mem_cons_self⟩

namespace Binary64

variable {negative : Bool} {units : Nat} {fits : Fits units}

/-- Whole numbers are written without a point. -/
theorem canonicalText_of_whole {i : Int} (h : (finite negative units fits).toInt? = some i) :
    (finite negative units fits).canonicalText = signText negative ++ Nat.toDigits 10 i.natAbs := by
  simp only [canonicalText, h]
  rfl

/-- The others are written with the shortest digits that read back. -/
theorem canonicalText_of_not_whole (h : (finite negative units fits).toInt? = none) :
    (finite negative units fits).canonicalText
      = signText negative ++ (shortest .away units).positional := by
  simp only [canonicalText, h]
  rfl

/-- The shortest decimal of a number that is not whole has places behind the point, and reads back. -/
theorem shortest_of_not_whole (h : (finite negative units fits).toInt? = none) :
    (shortest .away units).exponent < 0 ∧
      ofDecimal negative (shortest .away units) = finite negative units fits := by
  have hwhole : units % unitsPerOne ≠ 0 := by
    intro hmod
    rw [toInt?_finite, if_pos hmod] at h
    cases h
  have hpos : 0 < units := by
    rcases Nat.eq_zero_or_pos units with hzero | hpos
    · rw [hzero, Nat.zero_mod] at hwhole
      exact absurd rfl hwhole
    · exact hpos
  have hread := readsBack_shortest .away fits hpos
  exact ⟨exponent_neg fits hwhole hread, ofDecimal_of_readsBack fits hpos hread negative⟩

/-- The canonical text of a finite number is a numeral, after a sign that tells the two zeros apart. -/
theorem exists_canonicalText (negative : Bool) (units : Nat) (fits : Fits units) :
    ∃ text, (finite negative units fits).canonicalText = signText negative ++ text ∧
      IsNumeral text := by
  cases hint : (finite negative units fits).toInt? with
  | some i => exact ⟨_, canonicalText_of_whole hint, isNumeral_toDigits _⟩
  | none =>
      obtain ⟨whole, fraction, htext, hpoint⟩ :=
        Scientific.exists_positional (shortest_of_not_whole hint).1
      refine ⟨_, canonicalText_of_not_whole hint, ?_⟩
      rw [htext]
      exact .point whole fraction hpoint.whole_digits hpoint.whole_ne_nil hpoint.fraction_digits

/-- **The canonical text of a finite number is read as that number.** -/
theorem ofText?_canonicalText (negative : Bool) (units : Nat) (fits : Fits units) :
    ofText? (finite negative units fits).canonicalText = some (finite negative units fits) := by
  cases hint : (finite negative units fits).toInt? with
  | some i =>
      obtain ⟨c, rest, htext, hc⟩ := exists_cons_of_toDigits i.natAbs
      rw [canonicalText_of_whole hint, ofText?_signed htext hc negative, Scientific.ofText?_toDigits,
        Option.map_some, ofDecimal_whole fits (units_of_toInt? hint).1 negative]
  | none =>
      obtain ⟨hexponent, hread⟩ := shortest_of_not_whole hint
      obtain ⟨text, hcanonical, hnumeral⟩ := exists_canonicalText negative units fits
      have hpositional := canonicalText_of_not_whole hint
      have htext : text = (shortest .away units).positional :=
        List.append_cancel_left (hcanonical.symm.trans hpositional)
      obtain ⟨c, rest, hcons, hc⟩ := hnumeral.exists_cons
      rw [hcanonical, ofText?_signed hcons hc negative, htext,
        Scientific.ofText?_positional hexponent, Option.map_some, hread]

end Binary64

/-! ## Reading canonical numerals -/

namespace Reader

/-- A sign and digits are a plain numeral. -/
theorem isPlainNumeral_digits (negative : Bool) (n : Nat) :
    isPlainNumeral (signText negative ++ Nat.toDigits 10 n) = true := by
  have hdigits (c : Char) (hc : c ∈ Nat.toDigits 10 n) :
      (c ≠ '.' && c ≠ 'e' && c ≠ 'E') = true :=
    forall_digit (fun c => (c ≠ '.' && c ≠ 'e' && c ≠ 'E') = true) (by decide)
      (allDigits_toDigits n c hc)
  unfold isPlainNumeral
  rw [List.all_append, Bool.and_eq_true]
  exact ⟨by cases negative <;> rfl, List.all_eq_true.2 hdigits⟩

/-- A numeral without a point that is a 64-bit whole number is read as it. -/
theorem numeral_signed {negative : Bool} {n : Nat} {i : Int64}
    (h : int64? (Binary64.signed negative n) = some i) :
    numeral (signText negative ++ Nat.toDigits 10 n) = .ok (.integer i) := by
  unfold numeral
  dsimp only
  rw [isPlainNumeral_digits, if_pos rfl, Scientific.intOfText?_signed, Option.bind_some, h]

/-- A 64-bit whole number is read back. -/
theorem numeral_intText (i : Int64) : numeral (intText i.toInt) = .ok (.integer i) := by
  rw [intText_eq]
  apply numeral_signed
  rw [Binary64.signed_natAbs, int64?_toInt]

/-- A finite binary64 number is read back in its plain form. -/
theorem numeral_canonicalText (negative : Bool) (units : Nat) (fits : Binary64.Fits units) :
    numeral (Binary64.finite negative units fits).canonicalText
      = .ok (Value.ofBinary64 (.finite negative units fits)) := by
  have hread := Binary64.ofText?_canonicalText negative units fits
  rw [Value.ofBinary64_finite rfl]
  cases hint : (Binary64.finite negative units fits).toInt? with
  | some i =>
      have hsigned : Binary64.signed negative i.natAbs = i := (Binary64.units_of_toInt? hint).2
      have htext := Binary64.canonicalText_of_whole hint
      rw [Binary64.toInt64?, hint, Option.bind_some]
      cases hi : int64? i with
      | some j =>
          rw [htext]
          apply numeral_signed
          rw [hsigned, hi]
      | none =>
          -- digits alone, but too many of them: what they say is read as a binary64 number
          unfold numeral
          dsimp only
          rw [hread, htext, isPlainNumeral_digits, if_pos rfl, Scientific.intOfText?_signed,
            Option.bind_some, hsigned, hi]
  | none =>
      have hpoint : isPlainNumeral (Binary64.finite negative units fits).canonicalText = false := by
        obtain ⟨whole, fraction, htext, _⟩ :=
          Scientific.exists_positional (Binary64.shortest_of_not_whole hint).1
        rw [Binary64.canonicalText_of_not_whole hint, htext, isPlainNumeral]
        simp
      unfold numeral
      dsimp only
      rw [hpoint, hread, Binary64.toInt64?, hint, Option.bind_none]
      rfl

end Reader

end Latent

import Latent.Json.Printer
import Latent.Json.Reader
import Latent.Proofs.Binary64.ReadBack
import Latent.Proofs.Numeral.Texts

/-!
# JSON numbers and their texts

The text of a JSON number is a sign, digits, perhaps a point and more digits, and perhaps an exponent.
It is read as that number when nothing follows that a number could go on with: whole numbers are
written in full, and the shortest digits of any other number read back, wherever their point is.
-/

namespace Latent

namespace Json.Reading

/-! ## The parts of a number -/

/-- A number can go on with this character. -/
def continuesNumber (c : Char) : Bool := c.isDigit || (c = '.' || (c = 'e' || c = 'E'))

/-- Here a number ends. -/
abbrev EndsNumber (rest : List Char) : Prop := EndsRun continuesNumber rest

variable {run rest : List Char}

theorem endsDigits (h : EndsNumber rest) : EndsRun Char.isDigit rest :=
  h.mono fun c hc => by rw [continuesNumber, hc, Bool.true_or]

theorem digits_append (hrun : AllDigits run) (hne : run ≠ []) (hrest : EndsRun Char.isDigit rest) :
    digits (run ++ rest) = some (run, rest) := by
  unfold digits
  rw [takeWhile_append hrun hrest, dropWhile_append hrun hrest]
  exact if_neg hne

theorem wholeDigits_append (hrun : AllDigits run) (hne : run ≠ []) (hlead : LeadsWell run)
    (hrest : EndsRun Char.isDigit rest) : wholeDigits (run ++ rest) = some (run, rest) := by
  unfold wholeDigits
  rw [digits_append hrun hne hrest]
  exact if_neg hlead

theorem fractionDigits_point (hrun : AllDigits run) (hne : run ≠ [])
    (hrest : EndsRun Char.isDigit rest) :
    fractionDigits ('.' :: (run ++ rest)) = some (some run, rest) := by
  rw [fractionDigits, digits_append hrun hne hrest]
  rfl

theorem fractionDigits_none (h : EndsRun (· = '.') rest) :
    fractionDigits rest = some (none, rest) := by
  rw [fractionDigits]
  rintro text rfl
  cases h '.' rfl

theorem exponent_none (h : EndsNumber rest) : exponent rest = some (none, rest) := by
  have hmark : EndsRun (fun c => c = 'e' ∨ c = 'E') rest := h.mono fun c hc => by
    rcases of_decide_eq_true hc with rfl | rfl <;> rfl
  cases rest with
  | nil => rfl
  | cons c rest => exact if_neg (of_decide_eq_false (hmark c rfl))

/-- An exponent is written with its sign. -/
theorem exponent_signedText (i : Int) (hrest : EndsRun Char.isDigit rest) :
    exponent ('e' :: (Scientific.signedText i ++ rest)) = some (some i, rest) := by
  have hdigits := digits_append (allDigits_toDigits i.natAbs) Nat.toDigits_ne_nil hrest
  have hsigned := Binary64.signed_natAbs i
  unfold Scientific.signedText
  by_cases hneg : i < 0
  · rw [if_pos hneg, List.cons_append]
    show (digits (Nat.toDigits 10 i.natAbs ++ rest)).map _ = _
    rw [hdigits, Option.map_some, Nat.ofDigitChars_ten_toDigits]
    rw [decide_eq_true hneg] at hsigned
    rw [hsigned]
  · rw [if_neg hneg, List.cons_append]
    show (digits (Nat.toDigits 10 i.natAbs ++ rest)).map _ = _
    rw [hdigits, Option.map_some, Nat.ofDigitChars_ten_toDigits]
    rw [decide_eq_false hneg] at hsigned
    rw [hsigned]

/-- A number whose sign was read. -/
def unsignedNumber (negative : Bool) : Reads Number := fun text => do
  let (whole, text) ← wholeDigits text
  let (fraction, text) ← fractionDigits text
  let (power, text) ← exponent text
  let n ← numberOf? negative whole fraction power
  return (n, text)

/-- The sign of a number is read first. -/
theorem number_signText (negative : Bool) {text : List Char}
    (hminus : ∀ following, text ≠ '-' :: following) :
    number (signText negative ++ text) = unsignedNumber negative text := by
  cases negative with
  | true => rfl
  | false =>
      show number text = _
      unfold number
      split
      · rename_i heq
        split at heq
        · exact absurd rfl (hminus _)
        · cases heq
          rfl

/-- A number is read part by part. -/
theorem number_signed {negative : Bool} {text afterWhole afterFraction : List Char}
    {fraction : Option (List Char)} {power : Option Int} {n : Number}
    (hwhole : wholeDigits text = some (run, afterWhole))
    (hfraction : fractionDigits afterWhole = some (fraction, afterFraction))
    (hexponent : exponent afterFraction = some (power, rest))
    (hnumber : numberOf? negative run fraction power = some n)
    (hminus : ∀ following, text ≠ '-' :: following) :
    number (signText negative ++ text) = some (n, rest) := by
  rw [number_signText negative hminus, unsignedNumber]
  simp only [hwhole, hfraction, hexponent, hnumber, Option.bind_eq_bind, Option.bind_some,
    Option.pure_def]

theorem ne_minus_of_allDigits {text : List Char} (hrun : AllDigits run) (hne : run ≠ [])
    (following : List Char) : run ++ text ≠ '-' :: following := by
  obtain ⟨c, run, rfl⟩ := List.exists_cons_of_ne_nil hne
  intro heq
  have hc : c.isDigit = true := hrun c List.mem_cons_self
  rw [(List.cons.inj heq).1] at hc
  cases hc

/-! ## Whole numbers -/

/-- A whole number is read back. -/
theorem number_intText {i : Int} (h : IsWhole i) (hrest : EndsNumber rest) :
    number (intText i ++ rest) = some (.whole i h, rest) := by
  have hdigits := allDigits_toDigits i.natAbs
  have hpoint : EndsRun (· = '.') rest := hrest.mono fun c hc => by
    rw [of_decide_eq_true hc]
    rfl
  have hnumber : wholeNumber? (decide (i < 0)) i.natAbs = some (.whole i h) := by
    have hzero : ¬ (decide (i < 0) = true ∧ i.natAbs = 0) := by
      rw [decide_eq_true_eq]
      omega
    unfold wholeNumber?
    simp only [Binary64.signed_natAbs, dif_pos h, if_neg hzero]
  rw [intText_eq, List.append_assoc]
  refine number_signed (wholeDigits_append hdigits Nat.toDigits_ne_nil (leadsWell_toDigits _)
    (endsDigits hrest)) (fractionDigits_none hpoint) (exponent_none hrest) ?_
    (ne_minus_of_allDigits hdigits Nat.toDigits_ne_nil)
  rw [numberOf?, Nat.ofDigitChars_ten_toDigits, hnumber]

/-! ## Decimals -/

theorem floatNumber?_eq {x : Binary64} (h : x.isFinite = true) :
    floatNumber? x = some (.float x h) := dif_pos h

variable {negative : Bool} {whole fraction : List Char} {x : Binary64}

/-- Digits before and after a point. -/
theorem number_point {s : Scientific} (h : s.IsPointed whole fraction) (hrest : EndsNumber rest)
    (hx : Binary64.ofDecimal negative s = x) (hfinite : x.isFinite = true) :
    number (signText negative ++ (whole ++ '.' :: fraction) ++ rest) = some (.float x hfinite, rest) := by
  rw [← h.ofParts_eq] at hx
  subst hx
  rw [List.append_assoc, List.append_assoc, List.cons_append]
  exact number_signed (wholeDigits_append h.whole_digits h.whole_ne_nil h.leadsWell (endsRun_cons rfl))
    (fractionDigits_point h.fraction_digits h.fraction_ne_nil (endsDigits hrest)) (exponent_none hrest)
    (floatNumber?_eq hfinite) (ne_minus_of_allDigits h.whole_digits h.whole_ne_nil)

/-- With an exponent, even digits alone are a binary64 number. -/
theorem numberOf?_exponent (fraction : Option (List Char)) (power : Int) :
    numberOf? negative whole fraction (some power)
      = floatNumber? (.ofDecimal negative (Scientific.ofParts whole (fraction.getD []) power)) := by
  cases fraction <;> rfl

section

variable {s : Scientific} (hx : Binary64.ofDecimal negative s = x) (hfinite : x.isFinite = true)

include hx

/-- The first digit of a decimal, the other ones, however they are read, and the exponent. -/
theorem number_first {first : Char} {following afterFirst : List Char}
    (htext : Nat.toDigits 10 s.digits = first :: following) {read : Option (List Char)}
    (hread : fractionDigits afterFirst
      = some (read, 'e' :: (Scientific.signedText s.leadingExponent ++ rest)))
    (hfollowing : read.getD [] = following) (hend : EndsRun Char.isDigit afterFirst)
    (hrest : EndsNumber rest) :
    number (signText negative ++ first :: afterFirst) = some (.float x hfinite, rest) := by
  have hdigits := allDigits_toDigits s.digits
  rw [htext] at hdigits
  have hfirst : AllDigits [first] := List.forall_mem_singleton.2 (hdigits first List.mem_cons_self)
  have hlead : LeadsWell [first] := fun h => absurd h.1 (Nat.lt_irrefl 1)
  refine number_signed (wholeDigits_append hfirst (List.cons_ne_nil _ _) hlead hend) hread
    (exponent_signedText _ (endsDigits hrest)) ?_ (ne_minus_of_allDigits hfirst (List.cons_ne_nil _ _))
  rw [numberOf?_exponent, hfollowing, Scientific.ofParts_first htext, hx, floatNumber?_eq hfinite]

/-- One digit, perhaps a point and more digits, and an exponent. -/
theorem number_normalised (hrest : EndsNumber rest) :
    number (signText negative ++ s.normalised 'e' ++ rest) = some (.float x hfinite, rest) := by
  obtain ⟨first, following, htext, _⟩ := exists_cons_of_toDigits s.digits
  unfold Scientific.normalised Scientific.digitText
  rw [htext, List.append_assoc]
  cases following with
  | nil =>
      exact number_first hx hfinite htext (fractionDigits_none (endsRun_cons rfl)) rfl
        (endsRun_cons rfl) hrest
  | cons second following =>
      have hdigits := allDigits_toDigits s.digits
      rw [htext] at hdigits
      have hfollowing : AllDigits (second :: following) := (List.forall_mem_cons.1 hdigits).2
      have hread : fractionDigits
          ('.' :: (second :: following ++ 'e' :: Scientific.signedText s.leadingExponent ++ rest))
          = some (some (second :: following),
            'e' :: (Scientific.signedText s.leadingExponent ++ rest)) := by
        rw [List.append_assoc]
        exact fractionDigits_point hfollowing (List.cons_ne_nil _ _) (endsRun_cons rfl)
      exact number_first hx hfinite htext hread rfl (endsRun_cons rfl) hrest

end

/-- The text of a decimal that reads back as a number is read as that number. -/
theorem number_decimalText {units : Nat} (fits : Binary64.Fits units) (hpos : 0 < units)
    {s : Scientific} (h : Binary64.readsBack units s = true) (hrest : EndsNumber rest) :
    number (signText negative ++ decimalText s ++ rest)
      = some (.float (.finite negative units fits) rfl, rest) := by
  unfold decimalText
  split
  · rcases lt_or_ge s.exponent 0 with hneg | hnonneg
    · obtain ⟨whole, fraction, htext, hpoint⟩ := Scientific.exists_positional hneg
      rw [if_neg (by omega), List.append_nil, htext]
      exact number_point hpoint hrest (Binary64.ofDecimal_of_readsBack fits hpos h negative) rfl
    · -- zeros up to the point, and a zero behind it, change nothing
      have hread : Binary64.readsBack units ⟨10 ^ (s.exponent.toNat + 1) * s.digits, -1⟩ = true := by
        rw [Binary64.readsBack_pow_ten_mul, ← h]
        congr 2
        omega
      have hdigits := Binary64.digits_pos fits hpos (Binary64.readsBack_iff.1 h)
      rw [if_pos hnonneg]
      exact number_point (Scientific.isPointed_positional hdigits hnonneg) hrest
        (Binary64.ofDecimal_of_readsBack fits hpos hread negative) rfl
  · exact number_normalised (Binary64.ofDecimal_of_readsBack fits hpos h negative) rfl hrest

theorem binary64Text_finite (negative : Bool) (units : Nat) (fits : Binary64.Fits units) :
    binary64Text (.finite negative units fits) = signText negative ++
      if units = 0 then ['0', '.', '0'] else decimalText (Binary64.shortest .even units) := rfl

/-- **The text of a number is read back as that number.** -/
theorem number_text (n : Number) (hrest : EndsNumber rest) :
    number (n.text ++ rest) = some (n, rest) := by
  match n with
  | .whole i h => exact number_intText h hrest
  | .float (.finite negative units fits) _ =>
      rw [Number.text, binary64Text_finite]
      rcases Nat.eq_zero_or_pos units with rfl | hpos
      · rw [if_pos rfl]
        exact number_point Scientific.isPointed_zero hrest rfl rfl
      · rw [if_neg hpos.ne']
        exact number_decimalText fits hpos (Binary64.readsBack_shortest .even fits hpos) hrest

end Json.Reading

end Latent

import Latent.Numeral.Reading
import Mathlib.Tactic.IntervalCases

/-!
# Numerals and their texts

The digits of a whole number are read as that number, and a decimal that is spelled with a point is read
as itself.  A run of characters ends where `EndsRun` says.
-/

namespace Latent

/-! ## Runs of characters -/

/-- A run of characters with a property ends at the end of the text, or before a character without it. -/
def EndsRun (p : Char → Bool) (rest : List Char) : Prop := ∀ c ∈ rest.head?, p c = false

theorem endsRun_nil (p : Char → Bool) : EndsRun p [] := fun _ h => by cases h

theorem endsRun_cons {p : Char → Bool} {c : Char} {rest : List Char} (h : p c = false) :
    EndsRun p (c :: rest) := by
  intro d hd
  cases hd
  exact h

/-- A run that goes on with fewer characters ends where a longer one does. -/
theorem EndsRun.mono {p q : Char → Bool} {rest : List Char} (h : EndsRun q rest)
    (hpq : ∀ c, p c = true → q c = true) : EndsRun p rest := by
  intro c hc
  rcases Bool.eq_false_or_eq_true (p c) with htrue | hfalse
  · have hq := h c hc
    rw [hpq c htrue] at hq
    cases hq
  · exact hfalse

theorem takeWhile_append {p : Char → Bool} {run rest : List Char} (hrun : ∀ c ∈ run, p c = true)
    (hrest : EndsRun p rest) : (run ++ rest).takeWhile p = run := by
  rw [List.takeWhile_append_of_pos hrun]
  cases rest with
  | nil => exact List.append_nil run
  | cons c rest => rw [List.takeWhile_cons_of_neg (by simp [hrest c rfl]), List.append_nil]

theorem dropWhile_append {p : Char → Bool} {run rest : List Char} (hrun : ∀ c ∈ run, p c = true)
    (hrest : EndsRun p rest) : (run ++ rest).dropWhile p = rest := by
  rw [List.dropWhile_append_of_pos hrun]
  cases rest with
  | nil => rfl
  | cons c rest => rw [List.dropWhile_cons_of_neg (by simp [hrest c rfl])]

/-! ## Digits -/

/-- Digits alone. -/
abbrev AllDigits (text : List Char) : Prop := ∀ c ∈ text, c.isDigit = true

theorem allDigits_toDigits (n : Nat) : AllDigits (Nat.toDigits 10 n) := fun _ hc =>
  Nat.isDigit_of_mem_toDigits (by decide) (by decide) hc

theorem allDigits_zero : AllDigits ['0'] := allDigits_toDigits 0

/-- What holds of ten characters holds of every digit. -/
theorem forall_digit (p : Char → Prop) (h : ∀ n < 10, p (Nat.digitChar n)) {c : Char}
    (hc : c.isDigit = true) : p c := by
  have hlow : 48 ≤ c.toNat := by
    have hand := Bool.and_eq_true_iff.1 hc
    exact UInt32.le_iff_toNat_le.1 (of_decide_eq_true hand.1)
  have hhigh : c.toNat ≤ 57 := by
    have hand := Bool.and_eq_true_iff.1 hc
    exact UInt32.le_iff_toNat_le.1 (of_decide_eq_true hand.2)
  have hchar : c = Char.ofNat c.toNat := (Char.ofNat_toNat c).symm
  rw [hchar]
  generalize c.toNat = n at hlow hhigh
  interval_cases n
  · exact h 0 (by decide)
  · exact h 1 (by decide)
  · exact h 2 (by decide)
  · exact h 3 (by decide)
  · exact h 4 (by decide)
  · exact h 5 (by decide)
  · exact h 6 (by decide)
  · exact h 7 (by decide)
  · exact h 8 (by decide)
  · exact h 9 (by decide)

/-- The digits of a number begin with a digit. -/
theorem exists_cons_of_toDigits (n : Nat) :
    ∃ c rest, Nat.toDigits 10 n = c :: rest ∧ c.isDigit = true := by
  have hdigits := allDigits_toDigits n
  cases htext : Nat.toDigits 10 n with
  | nil => exact absurd htext Nat.toDigits_ne_nil
  | cons c rest =>
      rw [htext] at hdigits
      exact ⟨c, rest, rfl, hdigits c List.mem_cons_self⟩

/-- No zero stands before other digits. -/
def LeadsWell (run : List Char) : Prop := ¬ (1 < run.length ∧ run.head? = some '0')

/-- The digits of a positive number do not begin with a zero. -/
theorem head?_toDigits_ne {n : Nat} (h : 0 < n) : (Nat.toDigits 10 n).head? ≠ some '0' := by
  induction n using Nat.strongRecOn with
  | _ n ih =>
      rcases Nat.lt_or_ge n 10 with hlt | hge
      · rw [Nat.toDigits_of_lt_base hlt]
        intro hhead
        exact h.ne' (Nat.digitChar_eq_zero.1 (Option.some.inj hhead))
      · have hfirst := ih (n / 10) (Nat.div_lt_self h (by decide)) (Nat.div_pos hge (by decide))
        obtain ⟨c, rest, htext, _⟩ := exists_cons_of_toDigits (n / 10)
        rw [htext] at hfirst
        rwa [Nat.toDigits_of_base_le (by decide) hge, htext]

theorem LeadsWell.take {run : List Char} (h : LeadsWell run) (n : Nat) : LeadsWell (run.take n) := by
  rintro ⟨hlength, hhead⟩
  rw [List.length_take] at hlength
  rw [List.head?_take, if_neg (by omega)] at hhead
  exact h ⟨by omega, hhead⟩

/-- A number is written without leading zeros. -/
theorem leadsWell_toDigits (n : Nat) : LeadsWell (Nat.toDigits 10 n) := by
  rintro ⟨hlength, hhead⟩
  rcases Nat.eq_zero_or_pos n with rfl | hpos
  · exact absurd hlength (by decide)
  · exact head?_toDigits_ne hpos hhead

/-! ## Signs -/

/-- A minus sign, or nothing. -/
def signText (negative : Bool) : List Char := if negative then ['-'] else []

theorem intText_eq (i : Int) : intText i = signText (decide (i < 0)) ++ Nat.toDigits 10 i.natAbs := by
  unfold intText signText
  simp only [decide_eq_true_eq]

namespace Scientific

/-! ## Whole numbers -/

theorem natOfText?_toDigits (n : Nat) : natOfText? (Nat.toDigits 10 n) = some n := by
  have hdigits : (Nat.toDigits 10 n).all Char.isDigit = true :=
    List.all_eq_true.2 (allDigits_toDigits n)
  rw [natOfText?, if_pos ⟨Nat.toDigits_ne_nil, hdigits⟩, Nat.ofDigitChars_ten_toDigits]

/-- Digits behind a sign, or without one. -/
theorem intOfText?_signed (negative : Bool) (n : Nat) :
    intOfText? (signText negative ++ Nat.toDigits 10 n) = some (Binary64.signed negative n) := by
  cases negative with
  | true =>
      show (natOfText? (Nat.toDigits 10 n)).map _ = _
      rw [natOfText?_toDigits]
      rfl
  | false =>
      obtain ⟨c, rest, htext, hc⟩ := exists_cons_of_toDigits n
      have hplus : c ≠ '+' := forall_digit (· ≠ '+') (by decide) hc
      have hminus : c ≠ '-' := forall_digit (· ≠ '-') (by decide) hc
      have hread := natOfText?_toDigits n
      show intOfText? (Nat.toDigits 10 n) = _
      rw [htext] at hread ⊢
      rw [intOfText?, hread]
      · rfl
      · rintro text heq
        cases heq
        exact hplus rfl
      · rintro text heq
        cases heq
        exact hminus rfl

/-! ## Decimals -/

/-- Digits before and after a point. -/
theorem ofText?_point {whole fraction : List Char} (hwhole : AllDigits whole) (hne : whole ≠ [])
    (hfraction : AllDigits fraction) :
    ofText? (whole ++ '.' :: fraction) = some (ofParts whole fraction 0) := by
  have hpoint : EndsRun Char.isDigit ('.' :: fraction) := endsRun_cons rfl
  have hend : fraction.takeWhile Char.isDigit = fraction := by
    have h := takeWhile_append hfraction (endsRun_nil _)
    rwa [List.append_nil] at h
  have hrest : fraction.dropWhile Char.isDigit = [] := by
    have h := dropWhile_append hfraction (endsRun_nil _)
    rwa [List.append_nil] at h
  unfold ofText?
  rw [takeWhile_append hwhole hpoint, dropWhile_append hwhole hpoint]
  show (if whole = [] ∧ fraction.takeWhile Char.isDigit = [] then none
    else (exponentOfText? (fraction.dropWhile Char.isDigit)).map
      (ofParts whole (fraction.takeWhile Char.isDigit))) = _
  rw [hend, hrest, if_neg fun h => hne h.1]
  rfl

/-- Digits alone. -/
theorem ofText?_digits {whole : List Char} (hwhole : AllDigits whole) (hne : whole ≠ []) :
    ofText? whole = some (ofParts whole [] 0) := by
  have htake := takeWhile_append hwhole (endsRun_nil _)
  have hdrop := dropWhile_append hwhole (endsRun_nil _)
  rw [List.append_nil] at htake hdrop
  unfold ofText?
  rw [htake, hdrop]
  dsimp only
  rw [if_neg fun h => hne h.1]
  rfl

/-- The digits of a whole number. -/
theorem ofText?_toDigits (n : Nat) : ofText? (Nat.toDigits 10 n) = some ⟨n, 0⟩ := by
  rw [ofText?_digits (allDigits_toDigits n) Nat.toDigits_ne_nil, ofParts, List.append_nil,
    Nat.ofDigitChars_ten_toDigits]
  rfl

/-- Digits on both sides of a point, which spell this decimal. -/
structure IsPointed (s : Scientific) (whole fraction : List Char) : Prop where
  whole_digits : AllDigits whole
  whole_ne_nil : whole ≠ []
  leadsWell : LeadsWell whole
  fraction_digits : AllDigits fraction
  fraction_ne_nil : fraction ≠ []
  ofParts_eq : ofParts whole fraction 0 = s

/-- Zeros before and behind the point. -/
theorem isPointed_zero : IsPointed ⟨0, -1⟩ ['0'] ['0'] :=
  ⟨allDigits_zero, List.cons_ne_nil _ _, leadsWell_toDigits 0, allDigits_zero, List.cons_ne_nil _ _, rfl⟩

section

variable {s : Scientific} {places : Nat} (hplaces : s.exponent = -places)

include hplaces

/-- The point stands among the digits. -/
theorem isPointed_take (hpos : 0 < places) (h : places < s.digitText.length) :
    IsPointed s (s.digitText.take (s.digitText.length - places))
      (s.digitText.drop (s.digitText.length - places)) where
  whole_digits c hc := allDigits_toDigits _ c (List.mem_of_mem_take hc)
  whole_ne_nil := by
    rw [List.ne_nil_iff_length_pos, List.length_take]
    omega
  leadsWell := (leadsWell_toDigits _).take _
  fraction_digits c hc := allDigits_toDigits _ c (List.mem_of_mem_drop hc)
  fraction_ne_nil := by
    rw [List.ne_nil_iff_length_pos, List.length_drop]
    omega
  ofParts_eq := by
    rw [ofParts, List.take_append_drop, List.length_drop, digitText, Nat.ofDigitChars_ten_toDigits]
    congr 1
    rw [digitText] at h
    omega

/-- The digits stand behind the point, after zeros. -/
theorem isPointed_replicate (h : s.digitText.length ≤ places) :
    IsPointed s ['0'] (List.replicate (places - s.digitText.length) '0' ++ s.digitText) where
  whole_digits := allDigits_zero
  whole_ne_nil := List.cons_ne_nil _ _
  leadsWell := leadsWell_toDigits 0
  fraction_digits := List.forall_mem_append.2
    ⟨fun _ hc => by rw [List.eq_of_mem_replicate hc]; rfl, allDigits_toDigits _⟩
  fraction_ne_nil := List.append_ne_nil_of_right_ne_nil _ Nat.toDigits_ne_nil
  ofParts_eq := by
    rw [ofParts, List.length_append, List.length_replicate, List.singleton_append, ← List.cons_append,
      ← List.replicate_succ, Nat.ofDigitChars_append, Nat.ofDigitChars_replicate_zero, Nat.mul_zero,
      digitText, Nat.ofDigitChars_ten_toDigits]
    congr 1
    rw [digitText] at h
    omega

end

/-- A decimal with places behind the point is spelled with digits on both sides of it. -/
theorem exists_positional {s : Scientific} (h : s.exponent < 0) : ∃ whole fraction : List Char,
    s.positional = whole ++ '.' :: fraction ∧ IsPointed s whole fraction := by
  have hplaces : s.exponent = -((-s.exponent).toNat : Int) := by omega
  unfold positional
  dsimp only
  rw [if_neg (by omega)]
  split
  · rename_i hamong
    exact ⟨_, _, rfl, isPointed_take hplaces (by omega) hamong⟩
  · rename_i hbehind
    exact ⟨_, _, rfl, isPointed_replicate hplaces (Nat.le_of_not_lt hbehind)⟩

/-- A decimal without places behind the point is spelled with zeros at the end, and a zero may stand
behind a point. -/
theorem isPointed_positional {s : Scientific} (hpos : 0 < s.digits) (h : 0 ≤ s.exponent) :
    IsPointed ⟨10 ^ (s.exponent.toNat + 1) * s.digits, -1⟩ s.positional ['0'] := by
  unfold positional
  dsimp only
  rw [if_pos h]
  exact {
    whole_digits := List.forall_mem_append.2
      ⟨allDigits_toDigits _, fun _ hc => by rw [List.eq_of_mem_replicate hc]; rfl⟩
    whole_ne_nil := List.append_ne_nil_of_left_ne_nil Nat.toDigits_ne_nil _
    leadsWell := by
      obtain ⟨c, rest, htext, _⟩ := exists_cons_of_toDigits s.digits
      have hhead := head?_toDigits_ne hpos
      rw [htext] at hhead
      rw [digitText, htext]
      exact fun hzero => hhead hzero.2
    fraction_digits := allDigits_zero
    fraction_ne_nil := List.cons_ne_nil _ _
    ofParts_eq := by
      rw [ofParts, List.append_assoc, ← List.replicate_succ', Nat.ofDigitChars_append, digitText,
        Nat.ofDigitChars_ten_toDigits, Nat.ofDigitChars_replicate_zero]
      rfl }

/-- The digits of a decimal with a point behind the first of them. -/
theorem ofParts_first {s : Scientific} {first : Char} {following : List Char}
    (htext : Nat.toDigits 10 s.digits = first :: following) :
    ofParts [first] following s.leadingExponent = s := by
  have hvalue : Nat.ofDigitChars 10 (Nat.toDigits 10 s.digits) 0 = s.digits :=
    Nat.ofDigitChars_ten_toDigits
  rw [htext] at hvalue
  rw [ofParts, List.singleton_append, hvalue, leadingExponent, digitText, htext, List.length_cons]
  congr 1
  omega

/-- A decimal with places behind the point is read as itself. -/
theorem ofText?_positional {s : Scientific} (h : s.exponent < 0) :
    ofText? s.positional = some s := by
  obtain ⟨whole, fraction, htext, hpoint⟩ := exists_positional h
  rw [htext, ofText?_point hpoint.whole_digits hpoint.whole_ne_nil hpoint.fraction_digits,
    hpoint.ofParts_eq]

end Scientific

namespace Binary64

/-! ## Binary64 numbers -/

/-- A text that begins with a digit is no word. -/
theorem ofText?_signed {text rest : List Char} {c : Char} (htext : text = c :: rest)
    (hc : c.isDigit = true) (negative : Bool) :
    ofText? (signText negative ++ text) = (Scientific.ofText? text).map (ofDecimal negative) := by
  have hplus : c ≠ '+' := forall_digit (· ≠ '+') (by decide) hc
  have hminus : c ≠ '-' := forall_digit (· ≠ '-') (by decide) hc
  have hn : c.toLower ≠ 'n' := forall_digit (·.toLower ≠ 'n') (by decide) hc
  have hi : c.toLower ≠ 'i' := forall_digit (·.toLower ≠ 'i') (by decide) hc
  subst htext
  have hunsigned : ofUnsignedText? negative (c :: rest)
      = (Scientific.ofText? (c :: rest)).map (ofDecimal negative) := by
    unfold ofUnsignedText?
    dsimp only
    -- neither `nan` nor a word for infinity begins with a digit
    rw [List.map_cons, if_neg, if_neg]
    · rintro (heq | heq)
      · exact hi (List.cons.inj heq).1
      · exact hi (List.cons.inj heq).1
    · intro heq
      exact hn (List.cons.inj heq).1
  rw [← hunsigned]
  cases negative with
  | true => rfl
  | false =>
      show ofText? (c :: rest) = _
      rw [ofText?]
      · rintro text heq
        cases heq
        exact hminus rfl
      · rintro text heq
        cases heq
        exact hplus rfl

end Binary64

end Latent

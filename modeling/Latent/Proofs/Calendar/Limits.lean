import Latent.Proofs.Calendar.Steps
import Latent.Proofs.Found

/-!
# Numbers too large for the calendar

Of a number that is too large for a step it does not matter how large it is, for there is no such step.  So
two adjustments are the same when their numbers are, but for numbers that are too large in both
(`DateAdjustment.SameSteps`, `TimeAdjustment.SameSteps`).

Two numbers of an adjustment are no steps of their own: the year and the month that are overridden make up one
number of months, so that a year can make up for a month; and microseconds are so short that a step can count
more of them than any other number here.
-/

namespace Latent

/-- The numbers are the same, or both are too large for a step of months, days, hours, minutes or seconds. -/
def SameStep (i j : Int) : Prop := i = j ∨ 2 ^ 52 ≤ i.natAbs ∧ 2 ^ 52 ≤ j.natAbs

namespace SameStep

variable {i j : Int}

theorem refl (i : Int) : SameStep i i := .inl rfl

theorem mul_left (h : SameStep i j) {k : Int} (hk : k ≠ 0) : SameStep (k * i) (k * j) := by
  rcases h with rfl | ⟨hi, hj⟩
  · exact refl _
  · have hpos : 0 < k.natAbs := Int.natAbs_pos.2 hk
    refine .inr ⟨?_, ?_⟩ <;> rw [Int.natAbs_mul]
    · exact hi.trans (Nat.le_mul_of_pos_left _ hpos)
    · exact hj.trans (Nat.le_mul_of_pos_left _ hpos)

/-- Such steps lead to the same when none of them is that long. -/
theorem eq_of_short {α : Type} (h : SameStep i j) (step : Int → Option α)
    (hshort : ∀ {n result}, step n = some result → n.natAbs < 2 ^ 52) : step i = step j := by
  have hnone {n : Int} (hn : 2 ^ 52 ≤ n.natAbs) : step n = none := by
    cases hstep : step n with
    | none => rfl
    | some result => exact absurd (hshort hstep) (Nat.not_lt.2 hn)
  rcases h with rfl | ⟨hi, hj⟩
  · rfl
  · rw [hnone hi, hnone hj]

/-- Without zero, which is no override, they are the same or too large still. -/
theorem filter_ne_zero {x y : Option Int} (h : Option.Rel SameStep x y) :
    Option.Rel SameStep (x.filter (· ≠ 0)) (y.filter (· ≠ 0)) := by
  cases h with
  | none => exact .none
  | some hab =>
      rename_i i j
      rw [Option.filter_some, Option.filter_some]
      rcases hab with rfl | ⟨hi, hj⟩
      · split
        · exact .some (refl _)
        · exact .none
      · have hi0 : i ≠ 0 := by omega
        have hj0 : j ≠ 0 := by omega
        rw [if_pos (by simpa using hi0), if_pos (by simpa using hj0)]
        exact .some (.inr ⟨hi, hj⟩)

end SameStep

/-! ## Steps -/

namespace Date

variable {d : Date} {i j : Int}

theorem ofMonthIndex?_of_large {index : Int} (h : 4000000 ≤ index.natAbs) :
    ofMonthIndex? index 1 = none := by
  cases hof : ofMonthIndex? index 1 with
  | none => rfl
  | some e =>
      obtain ⟨hyear, hmonth, _⟩ := of?_eq_some_iff.1 hof
      have hlt := natAbs_monthIndex_lt e
      unfold monthIndex at hlt
      omega

theorem addMonths?_congr (h : SameStep i j) : d.addMonths? i = d.addMonths? j :=
  h.eq_of_short d.addMonths? fun hmoved => (addMonths?_eq_some_iff.1 hmoved).natAbs_lt.trans (by decide)

theorem addDays?_congr (h : SameStep i j) (k : Int) (hk : k.natAbs ≤ 1) :
    d.addDays? (i + k) = d.addDays? (j + k) := by
  refine h.eq_of_short (fun n => d.addDays? (n + k)) fun hmoved => ?_
  have hlt := natAbs_lt_of_addDays? hmoved
  omega

end Date

namespace DateTime

theorem addMonths?_congr {t : DateTime} {i j : Int} (h : SameStep i j) : t.addMonths? i = t.addMonths? j := by
  rw [addMonths?, addMonths?, Date.addMonths?_congr h]

/-- The numbers are counted in so many microseconds. -/
theorem addMicros?_congr {t : DateTime} {i j : Int} (h : SameStep i j) {k : Int} (hk : 4000 ≤ k) :
    t.addMicros? (i * k) = t.addMicros? (j * k) := by
  refine h.eq_of_short (fun n => t.addMicros? (n * k)) fun {n _} hmoved => ?_
  have hlt := natAbs_lt_of_addMicros? hmoved
  rw [Int.natAbs_mul] at hlt
  have hle : n.natAbs * 4000 ≤ n.natAbs * k.natAbs := Nat.mul_le_mul_left _ (by omega)
  omega

end DateTime

/-- Steps that lead to the same from everywhere make the same run. -/
theorem TimeAdjustment.addAll?_congr {steps others : List Int}
    (h : List.Forall₂ (fun i j => ∀ t : DateTime, t.addMicros? i = t.addMicros? j) steps others) (t : DateTime) :
    addAll? t steps = addAll? t others := by
  induction h generalizing t with
  | nil => rfl
  | cons hstep _ ih =>
      rw [addAll?, addAll?, List.foldlM_cons, List.foldlM_cons, hstep t]
      congr 1
      exact funext ih

/-! ## Adjustments -/

namespace DateAdjustment

variable {a b : DateAdjustment}

/-- A month that is not too large stays; of a year it matters only whether it is too large. -/
theorem firstOfMonth?_congr (hmonth : a.month = b.month) (hsize : ∀ month ∈ a.month, month.natAbs ≤ 2 ^ 53)
    (hyear : Option.Rel SameStep a.year b.year) (base : Date) : a.firstOfMonth? base = b.firstOfMonth? base := by
  have hmonths : (a.month.getD base.month).natAbs ≤ 2 ^ 53 := by
    cases hfield : a.month with
    | some month => exact hsize month hfield
    | none =>
        obtain ⟨_, _, _, hle, _⟩ := base.valid
        rw [Option.getD_none]
        omega
  unfold firstOfMonth?
  rw [← hmonth]
  dsimp only
  rcases rel_getD hyear (SameStep.refl base.year) with heq | ⟨ha, hb⟩
  · rw [heq]
  · rw [Date.ofMonthIndex?_of_large (by omega), Date.ofMonthIndex?_of_large (by omega)]

/-- The overrides ask for the same month, and the other numbers are the same steps. -/
structure SameSteps (a b : DateAdjustment) : Prop where
  first (base : Date) : a.firstOfMonth? base = b.firstOfMonth? base
  day : Option.Rel SameStep a.day b.day
  addYears : SameStep a.addYears b.addYears
  addMonths : SameStep a.addMonths b.addMonths
  addDays : SameStep a.addDays b.addDays

theorem SameSteps.override? (h : SameSteps a b) (base : Date) : a.override? base = b.override? base := by
  rw [DateAdjustment.override?, DateAdjustment.override?, h.first base]
  congr 1
  funext first
  have hday := h.day
  generalize a.day = x at hday ⊢
  generalize b.day = y at hday ⊢
  cases hday with
  | none => rfl
  | some hstep => exact Date.addDays?_congr hstep (-1) (by decide)

/-- Such adjustments are the same. -/
theorem SameSteps.adjust? (h : SameSteps a b) (base : Date) : a.adjust? base = b.adjust? base := by
  have hyears (date : Date) := Date.addMonths?_congr (d := date) (h.addYears.mul_left (k := 12) (by decide))
  have hmonths (date : Date) := Date.addMonths?_congr (d := date) h.addMonths
  have hdays (date : Date) : date.addDays? a.addDays = date.addDays? b.addDays := by
    simpa using Date.addDays?_congr (d := date) h.addDays 0 (by decide)
  simp only [DateAdjustment.adjust?, h.override? base, hyears, hmonths, hdays]

end DateAdjustment

namespace TimeAdjustment

variable {a b : TimeAdjustment} {d e : DateAdjustment}

/-- The microseconds are the same numbers, and the other numbers are the same steps. -/
structure SameSteps (a b : TimeAdjustment) : Prop where
  hour : Option.Rel SameStep a.hour b.hour
  minute : Option.Rel SameStep a.minute b.minute
  second : Option.Rel SameStep a.second b.second
  micros : a.micros = b.micros
  addHours : SameStep a.addHours b.addHours
  addMinutes : SameStep a.addMinutes b.addMinutes
  addSeconds : SameStep a.addSeconds b.addSeconds
  addMicros : a.addMicros = b.addMicros

theorem SameSteps.overrides (h : SameSteps a b) (base : TimeOfDay) (t : DateTime) :
    addAll? t (a.overrides base) = addAll? t (b.overrides base) := by
  unfold TimeAdjustment.overrides
  rw [h.micros]
  refine addAll?_congr (.cons (fun _ => ?_) (.cons (fun _ => ?_) (.cons (fun _ => ?_)
    (.cons (fun _ => rfl) .nil)))) t
  · exact DateTime.addMicros?_congr (rel_getD h.hour (.refl _)) (by decide)
  · exact DateTime.addMicros?_congr (rel_getD h.minute (.refl _)) (by decide)
  · exact DateTime.addMicros?_congr (rel_getD h.second (.refl _)) (by decide)

theorem SameSteps.additions (h : SameSteps a b) (hdays : SameStep d.addDays e.addDays) (t : DateTime) :
    addAll? t (d.addDays * microsPerDay :: a.additions) = addAll? t (e.addDays * microsPerDay :: b.additions) := by
  unfold TimeAdjustment.additions
  rw [h.addMicros]
  refine addAll?_congr (.cons (fun _ => ?_) (.cons (fun _ => ?_) (.cons (fun _ => ?_)
    (.cons (fun _ => ?_) (.cons (fun _ => rfl) .nil))))) t
  · exact DateTime.addMicros?_congr hdays (by decide)
  · exact DateTime.addMicros?_congr h.addHours (by decide)
  · exact DateTime.addMicros?_congr h.addMinutes (by decide)
  · exact DateTime.addMicros?_congr h.addSeconds (by decide)

/-- Such adjustments are the same. -/
theorem SameSteps.adjust? (h : SameSteps a b) (hdate : d.SameSteps e) (base : DateTime) :
    a.adjust? d base = b.adjust? e base := by
  have hyears (t : DateTime) := DateTime.addMonths?_congr (t := t) (hdate.addYears.mul_left (k := 12) (by decide))
  have hmonths (t : DateTime) := DateTime.addMonths?_congr (t := t) hdate.addMonths
  simp only [TimeAdjustment.adjust?, hdate.override? base.date, h.overrides base.time, hyears, hmonths,
    h.additions hdate.addDays]

end TimeAdjustment

end Latent

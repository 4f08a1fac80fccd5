import Latent.Calendar.Duration
import Latent.Proofs.Calendar.Steps

/-!
# Adjustments in words

The numbers of an adjustment have 64 bits.  Computed in words, each product, sum and difference has to fit in
64 bits and a year in 32, months are counted in 32 bits without a sign, and days and seconds are durations
first, so that they must not be too long for one.  What does not fit has no result.

None of this is seen in a result: what does not fit is too long a step for the calendar.  So an adjustment in
words is the one in whole numbers without a bound (`DateAdjustment.adjustInWords?_eq`,
`TimeAdjustment.adjustInWords?_eq`).
-/

namespace Latent

/-- A number that fits in so many bits, one of them for the sign. -/
def fitting? (bits : Nat) (i : Int) : Option Int :=
  if -(2 ^ (bits - 1)) ≤ i ∧ i < 2 ^ (bits - 1) then some i else none

/-- Short of the limit a number fits. -/
theorem fitting?_of_natAbs_lt (bits : Nat) {i : Int} (h : i.natAbs < 2 ^ (bits - 1)) :
    fitting? bits i = some i := by
  have hcast : ((2 ^ (bits - 1) : Nat) : Int) = 2 ^ (bits - 1) := by
    push_cast
    rfl
  exact if_pos (by omega)

theorem eq_of_fitting? {bits : Nat} {i j : Int} (h : fitting? bits i = some j) : j = i := by
  unfold fitting? at h
  split at h
  · exact (Option.some.inj h).symm
  · cases h

/-- A check that comes before a step is not seen when the step fails wherever the check does. -/
theorem bind_fitting? {α : Type} {bits : Nat} {i : Int} {step : Int → Option α}
    (h : ∀ result, step i = some result → i.natAbs < 2 ^ (bits - 1)) :
    (fitting? bits i).bind step = step i := by
  cases hstep : step i with
  | none =>
      cases hfit : fitting? bits i with
      | none => rfl
      | some j => rw [Option.bind_some, eq_of_fitting? hfit, hstep]
  | some result => rw [fitting?_of_natAbs_lt bits (h result hstep), Option.bind_some, hstep]

/-- Nor is it when more steps follow. -/
theorem bind_fitting?_bind {α β : Type} {bits : Nat} {i : Int} {step : Int → Option α}
    (h : ∀ result, step i = some result → i.natAbs < 2 ^ (bits - 1)) (next : α → Option β) :
    ((fitting? bits i).bind fun j => (step j).bind next) = (step i).bind next := by
  rw [← Option.bind_assoc, bind_fitting? h]

/-! ## Durations of whole seconds -/

namespace Duration

/-- So many spans of so many seconds, when that is not too long for a duration. -/
def ofSpans? (count seconds : Int) : Option Duration := ofNanos? (count * seconds * 1000000000)

variable {count seconds : Int}

theorem micros_of_ofSpans? {d : Duration} (h : ofSpans? count seconds = some d) :
    d.micros = count * seconds * 1000000 := by
  unfold ofSpans? ofNanos? at h
  split at h
  · cases h
    have hnanos : count * seconds * 1000000000 = count * seconds * 1000000 * 1000 := by omega
    show (count * seconds * 1000000000).tdiv 1000 = _
    rw [hnanos]
    exact Int.mul_tdiv_cancel _ (by decide)
  · cases h

theorem exists_ofSpans? (h : (count * seconds * 1000000).natAbs < 18000000000000000000) :
    ∃ d, ofSpans? count seconds = some d := by
  unfold ofSpans? ofNanos? longest
  rw [dif_pos (by omega)]
  exact ⟨_, rfl⟩

/-- Too long a duration is seen no more than too long a step. -/
theorem bind_ofSpans? {α : Type} (step : Int → Option α)
    (h : ∀ result, step (count * seconds * 1000000) = some result →
      (count * seconds * 1000000).natAbs < 18000000000000000000) :
    ((ofSpans? count seconds).bind fun d => step d.micros) = step (count * seconds * 1000000) := by
  cases hstep : step (count * seconds * 1000000) with
  | none =>
      cases hspans : ofSpans? count seconds with
      | none => rfl
      | some d => rw [Option.bind_some, micros_of_ofSpans? hspans, hstep]
  | some result =>
      obtain ⟨d, hspans⟩ := exists_ofSpans? (h result hstep)
      rw [hspans, Option.bind_some, micros_of_ofSpans? hspans, hstep]

end Duration

/-! ## Dates -/

namespace Date

/-- Months are counted in 32 bits, apart from their sign. -/
def addMonthsInWords? (d : Date) (months : Int) : Option Date :=
  if months.natAbs < 2 ^ 32 then d.addMonths? months else none

/-- Days are added as the whole days of a duration. -/
def addDaysInWords? (d : Date) (days : Int) : Option Date :=
  (Duration.ofSpans? days 86400).bind fun span => d.addDays? (span.micros / microsPerDay)

theorem addMonthsInWords?_eq (d : Date) (months : Int) :
    d.addMonthsInWords? months = d.addMonths? months := by
  unfold addMonthsInWords?
  split
  · rfl
  · rename_i hlong
    cases hmoved : d.addMonths? months with
    | none => rfl
    | some e =>
        have hlt := (addMonths?_eq_some_iff.1 hmoved).natAbs_lt
        omega

/-- So are days. -/
theorem addDaysInWords?_eq (d : Date) (days : Int) : d.addDaysInWords? days = d.addDays? days := by
  have hdays : days * 86400 * 1000000 / microsPerDay = days := by
    unfold microsPerDay
    omega
  unfold addDaysInWords?
  rw [Duration.bind_ofSpans? fun micros => d.addDays? (micros / microsPerDay), hdays]
  intro e he
  rw [hdays] at he
  have hlt := natAbs_lt_of_addDays? he
  omega

end Date

/-- No month is without a day. -/
theorem daysInMonth_pos (year : Int) (month : Nat) : 0 < daysInMonth year month := by
  unfold daysInMonth
  split
  · split <;> decide
  · split <;> decide

namespace DateAdjustment

/-- The first day of the month that the overrides ask for: months after January and the year that they lead
to are words. -/
def firstOfMonthInWords? (a : DateAdjustment) (base : Date) : Option Date := do
  let months ←
    match a.month with
    | some month => fitting? 64 (month - 1)
    | .none => some (base.month - 1)
  let year ← fitting? 64 (a.year.getD base.year + months / 12)
  let year ← fitting? 32 year
  Date.of? year ((months % 12).toNat + 1) 1

/-- The base with the overrides alone. -/
def overrideInWords? (a : DateAdjustment) (base : Date) : Option Date := do
  let first ← a.firstOfMonthInWords? base
  match a.day with
  | some day => do
    let days ← fitting? 64 (day - 1)
    first.addDaysInWords? days
  | .none => Date.of? first.year first.month (min base.day (daysInMonth first.year first.month))

/-- The base with the overrides and then the additions: years, months, days. -/
def adjustInWords? (a : DateAdjustment) (base : Date) : Option Date := do
  let date ← a.overrideInWords? base
  let months ← fitting? 64 (a.addYears * 12)
  let date ← date.addMonthsInWords? months
  let date ← date.addMonthsInWords? a.addMonths
  date.addDaysInWords? a.addDays

/-- A year that does not fit is no year of the calendar. -/
theorem bind_fitting?_year (year months : Int) :
    ((fitting? 64 (year + months / 12)).bind fun later => (fitting? 32 later).bind fun later =>
        Date.of? later ((months % 12).toNat + 1) 1)
      = Date.ofMonthIndex? (12 * year + months) 1 := by
  have hyear : (12 * year + months) / 12 = year + months / 12 := by omega
  have hmonth : (12 * year + months) % 12 = months % 12 := by omega
  have hlength : min 1 (daysInMonth (year + months / 12) ((months % 12).toNat + 1)) = 1 := by
    have hpos := daysInMonth_pos (year + months / 12) ((months % 12).toNat + 1)
    omega
  have hsize {later : Int} {d : Date} (h : Date.of? later ((months % 12).toNat + 1) 1 = some d) :
      later.natAbs < 2 ^ 31 := by
    obtain ⟨hlow, hhigh, _⟩ := d.valid
    rw [(Date.of?_eq_some_iff.1 h).1] at hlow hhigh
    unfold firstYear at hlow
    unfold lastYear at hhigh
    omega
  have hwords : (fun later => (fitting? 32 later).bind fun later =>
      Date.of? later ((months % 12).toNat + 1) 1)
        = fun later => Date.of? later ((months % 12).toNat + 1) 1 :=
    funext fun later => bind_fitting? fun _ h => hsize h
  rw [hwords, bind_fitting? fun _ h => (hsize h).trans (by decide), Date.ofMonthIndex?, hyear, hmonth,
    hlength]

/-- So is the first day of the month found. -/
theorem firstOfMonthInWords?_eq (a : DateAdjustment) (base : Date) :
    a.firstOfMonthInWords? base = a.firstOfMonth? base := by
  obtain ⟨_, _, hmonth, hmonth', _⟩ := base.valid
  unfold firstOfMonthInWords? firstOfMonth?
  cases a.month with
  | none =>
      have hrange : InInt64 ((base.month : Int) - 1) := by
        constructor <;> omega
      dsimp only [Option.getD_none]
      rw [if_pos hrange]
      exact bind_fitting?_year _ _
  | some month =>
      dsimp only [Option.getD_some]
      by_cases hrange : InInt64 (month - 1)
      · have hfit : fitting? 64 (month - 1) = some (month - 1) := if_pos hrange
        rw [if_pos hrange, hfit]
        exact bind_fitting?_year _ _
      · have hfit : fitting? 64 (month - 1) = .none := if_neg hrange
        rw [if_neg hrange, hfit]
        rfl

/-- So is a date overridden. -/
theorem overrideInWords?_eq (a : DateAdjustment) (base : Date) :
    a.overrideInWords? base = a.override? base := by
  unfold overrideInWords? override?
  rw [firstOfMonthInWords?_eq]
  congr 1
  funext first
  cases a.day with
  | none =>
      obtain ⟨_, _, hmonth, hmonth', _⟩ := first.valid
      have hyear : first.monthIndex / 12 = first.year := by
        unfold Date.monthIndex
        omega
      have hmonth : (first.monthIndex % 12).toNat + 1 = first.month := by
        unfold Date.monthIndex
        omega
      dsimp only
      rw [Date.ofMonthIndex?, hyear, hmonth]
  | some day =>
      dsimp only
      refine (bind_fitting? fun d hd => ?_).trans (Date.addDaysInWords?_eq first (day - 1))
      rw [Date.addDaysInWords?_eq] at hd
      have hlt := Date.natAbs_lt_of_addDays? hd
      omega

/-- **An adjustment of a date in words is the one without a bound.** -/
theorem adjustInWords?_eq (a : DateAdjustment) (base : Date) :
    a.adjustInWords? base = a.adjust? base := by
  unfold adjustInWords? adjust?
  rw [overrideInWords?_eq]
  congr 1
  funext date
  simp only [Date.addMonthsInWords?_eq, Date.addDaysInWords?_eq]
  rw [Int.mul_comm 12]
  refine bind_fitting?_bind (fun moved hmoved => ?_) _
  have hlt := (Date.addMonths?_eq_some_iff.1 hmoved).natAbs_lt
  omega

end DateAdjustment

/-! ## Date-times -/

namespace DateTime

/-- So many spans of so many seconds are added as a duration. -/
def addSpans? (t : DateTime) (count seconds : Int) : Option DateTime :=
  (Duration.ofSpans? count seconds).bind fun span => t.addMicros? span.micros

/-- The date moved by months in words, the time of day kept. -/
def addMonthsInWords? (t : DateTime) (months : Int) : Option DateTime :=
  (t.date.addMonthsInWords? months).map fun date => ⟨date, t.time⟩

/-- So are the spans of a time added. -/
theorem addSpans?_eq (t : DateTime) (count seconds : Int) :
    t.addSpans? count seconds = t.addMicros? (count * seconds * 1000000) :=
  Duration.bind_ofSpans? t.addMicros? fun _ h => natAbs_lt_of_addMicros? h

theorem addMonthsInWords?_eq (t : DateTime) (months : Int) :
    t.addMonthsInWords? months = t.addMonths? months := by
  rw [addMonthsInWords?, Date.addMonthsInWords?_eq, addMonths?]

end DateTime

namespace TimeAdjustment

/-- The base with both overrides and then both additions: years, months, days, and down to microseconds. -/
def adjustInWords? (a : TimeAdjustment) (d : DateAdjustment) (base : DateTime) : Option DateTime := do
  let date ← d.overrideInWords? base.date
  let t ← (DateTime.atMidnight date).addSpans? (a.hour.getD base.time.hour) 3600
  let t ← t.addSpans? (a.minute.getD base.time.minute) 60
  let t ← t.addSpans? (a.second.getD base.time.second) 1
  let t ← t.addMicros? (a.micros.getD base.time.micros)
  let months ← fitting? 64 (d.addYears * 12)
  let t ← t.addMonthsInWords? months
  let t ← t.addMonthsInWords? d.addMonths
  let t ← t.addSpans? d.addDays 86400
  let t ← t.addSpans? a.addHours 3600
  let t ← t.addSpans? a.addMinutes 60
  let t ← t.addSpans? a.addSeconds 1
  t.addMicros? a.addMicros

/-- **An adjustment of a date-time in words is the one without a bound.** -/
theorem adjustInWords?_eq (a : TimeAdjustment) (d : DateAdjustment) (base : DateTime) :
    a.adjustInWords? d base = a.adjust? d base := by
  have hyears (t : DateTime) (next : DateTime → Option DateTime) :
      ((fitting? 64 (d.addYears * 12)).bind fun months => (t.addMonths? months).bind next)
        = (t.addMonths? (12 * d.addYears)).bind next := by
    rw [Int.mul_comm 12]
    refine bind_fitting?_bind (fun moved hmoved => ?_) next
    have hlt := (DateTime.addMonths?_eq_some_iff.1 hmoved).date.natAbs_lt
    omega
  unfold adjustInWords? adjust? addAll? overrides additions
  simp only [DateAdjustment.overrideInWords?_eq, DateTime.addSpans?_eq, DateTime.addMonthsInWords?_eq,
    List.foldlM_cons, List.foldlM_nil, Option.bind_eq_bind, Option.bind_assoc, hyears,
    Int.mul_assoc, Option.pure_def, Option.bind_fun_some, microsPerDay]
  rfl

end TimeAdjustment

end Latent

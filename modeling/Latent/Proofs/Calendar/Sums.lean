import Latent.Proofs.Calendar.Words

/-!
# Adjustments of date-times as sums

Between the moves by months an adjustment of a date-time only adds microseconds, one kind after another.  So
it is two sums of whole numbers: the overrides of the time of day, counted from midnight of the day that the
date overrides ask for, and all additions below a month, counted from where the months have led
(`TimeAdjustment.adjust?_sums`).
-/

namespace Latent

namespace TimeAdjustment

variable {a : TimeAdjustment} {d : DateAdjustment} {base r : DateTime}

/-- The microseconds after midnight that the overrides ask for: a field that is not overridden is the base's. -/
def microsAfterMidnight (a : TimeAdjustment) (base : TimeOfDay) : Int :=
  ((a.hour.getD base.hour * 60 + a.minute.getD base.minute) * 60 + a.second.getD base.second) * 1000000
    + a.micros.getD base.micros

/-- The microseconds that are added below a month. -/
def addedMicros (a : TimeAdjustment) (d : DateAdjustment) : Int :=
  d.addDays * 86400 * 1000000 + a.addHours * 3600 * 1000000 + a.addMinutes * 60 * 1000000
    + a.addSeconds * 1000000 + a.addMicros

theorem sum_overrides (a : TimeAdjustment) (base : TimeOfDay) :
    (a.overrides base).sum = a.microsAfterMidnight base := by
  unfold overrides microsAfterMidnight
  simp only [List.sum_cons, List.sum_nil]
  omega

theorem sum_additions (a : TimeAdjustment) (d : DateAdjustment) :
    (d.addDays * microsPerDay :: a.additions).sum = a.addedMicros d := by
  unfold additions addedMicros microsPerDay
  simp only [List.sum_cons, List.sum_nil]
  omega

theorem microNumber_atMidnight (date : Date) :
    (DateTime.atMidnight date).microNumber = date.dayNumber * microsPerDay := by
  simp [DateTime.microNumber, DateTime.atMidnight, TimeOfDay.midnight, TimeOfDay.microOfDay, TimeOfDay.micros]

/-- The parts of an adjustment: a run of steps, two moves by months, and a run of steps. -/
theorem exists_of_adjust? (h : a.adjust? d base = some r) :
    ∃ (date : Date) (start anniversary moved : DateTime),
      d.override? base.date = some date ∧
      addAll? (.atMidnight date) (a.overrides base.time) = some start ∧
      start.IsMoved (12 * d.addYears) anniversary ∧ anniversary.IsMoved d.addMonths moved ∧
      addAll? moved (d.addDays * microsPerDay :: a.additions) = some r := by
  unfold adjust? at h
  simp only [Option.bind_eq_bind, Option.bind_eq_some_iff, DateTime.addMonths?_eq_some_iff] at h
  obtain ⟨date, hdate, start, hstart, anniversary, hyears, moved, hmonths, hrest⟩ := h
  exact ⟨date, start, anniversary, moved, hdate, hstart, hyears, hmonths, hrest⟩

/-- How the result `r` of an adjustment comes about: `start` is so many microseconds after midnight of the
overridden date as the overrides of the time of day ask for, years and months move its date and keep its time of
day, and `r` is all further additions after that, to the microsecond. -/
structure Sums (a : TimeAdjustment) (d : DateAdjustment) (base : DateTime) (date : Date) (start : DateTime)
    (anniversary : Date) (moved r : DateTime) : Prop where
  overridden : d.override? base.date = some date
  starts_whole : start.time.IsWholeMicro
  starts : start.microNumber = date.dayNumber * microsPerDay + a.microsAfterMidnight base.time
  years : start.date.IsMoved (12 * d.addYears) anniversary
  months : anniversary.IsMoved d.addMonths moved.date
  keeps : moved.time = start.time
  ends_whole : r.time.IsWholeMicro
  ends : r.microNumber = moved.microNumber + a.addedMicros d

/-- Each part adds up. -/
theorem exists_sums (h : a.adjust? d base = some r) :
    ∃ date start anniversary moved, Sums a d base date start anniversary moved r := by
  obtain ⟨date, start, anniversary, moved, hdate, hstart, hyears, hmonths, hrest⟩ := exists_of_adjust? h
  have hmidnight : (DateTime.atMidnight date).time.IsWholeMicro :=
    (by decide : TimeOfDay.midnight.IsWholeMicro)
  obtain ⟨hwhole, hnumber⟩ := addAll?_sum hmidnight hstart
  have htime : moved.time = start.time := hmonths.time.trans hyears.time
  obtain ⟨hlast, hsum⟩ := addAll?_sum (by rwa [htime]) hrest
  rw [microNumber_atMidnight, sum_overrides] at hnumber
  rw [sum_additions] at hsum
  exact ⟨date, start, anniversary.date, moved, hdate, hwhole, hnumber, hyears.date, hmonths.date, htime, hlast,
    hsum⟩

/-- **An adjustment of a date-time is one sum of microseconds before its moves by months and one after
them**, computed without a bound, and computed in words it is the same adjustment. -/
theorem adjust?_sums (a : TimeAdjustment) (d : DateAdjustment) (base : DateTime) :
    a.adjustInWords? d base = a.adjust? d base ∧
      ∀ r, a.adjust? d base = some r →
        ∃ date start anniversary moved, Sums a d base date start anniversary moved r :=
  ⟨adjustInWords?_eq a d base, fun _ => exists_sums⟩

/-- From a leap second: hours and microseconds are kept, minutes and seconds lie out of their ranges, and the
day is cut off after the year. -/
theorem adjust?_sums_leapSecond :
    let a : TimeAdjustment := ⟨.none, some (-75), some 3600, .none, 25, 0, -1, -2000000⟩
    let d : DateAdjustment := ⟨some 2024, some 2, some 29, 1, 1, -1⟩
    let base : DateTime := ⟨⟨2016, 12, 31, by decide⟩, ⟨86399, 1500000000, by decide⟩⟩
    let r : DateTime := ⟨⟨2025, 3, 28, by decide⟩, ⟨85498, 500000000, by decide⟩⟩
    a.adjust? d base = some r ∧ a.adjustInWords? d base = some r ∧
      ∃ date start anniversary moved, Sums a d base date start anniversary moved r := by
  intro a d base r
  have hr : a.adjust? d base = some r := by decide +kernel
  obtain ⟨hwords, hsums⟩ := adjust?_sums a d base
  exact ⟨hr, hwords.trans hr, hsums r hr⟩

end TimeAdjustment

end Latent

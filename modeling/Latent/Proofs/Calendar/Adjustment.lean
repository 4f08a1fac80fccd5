import Latent.Proofs.Calendar.MicroNumber

/-!
# Adjustments of dates and of date-times

Months and whole days move a date-time as they move its date, and keep the time of day.  So an adjustment
that overrides the whole time of day, and adds nothing to it, adjusts the date alone
(`TimeAdjustment.adjust?_replacing_time`).

Overrides of year, month and day are counted from the first day of the year, months before days.  So a
month or a day outside its range rolls over as an addition does
(`DateAdjustment.override?_startOfYear`).
-/

namespace Latent

/-! ## Steps that keep the time of day -/

/-- At a time of day, a step of date-times is a step of dates: it moves the date and keeps the time, or
there is no such date. -/
def KeepsTime (time : TimeOfDay) (step : Date → Option Date)
    (timedStep : DateTime → Option DateTime) : Prop :=
  ∀ date, timedStep ⟨date, time⟩ = (step date).map (⟨·, time⟩)

namespace KeepsTime

variable {time : TimeOfDay}

/-- One step after another. -/
theorem bind {step next : Date → Option Date} {timedStep timedNext : DateTime → Option DateTime}
    (h : KeepsTime time step timedStep) (hnext : KeepsTime time next timedNext) :
    KeepsTime time (fun date => (step date).bind next) (fun t => (timedStep t).bind timedNext) := by
  intro date
  dsimp only
  rw [h date]
  cases step date with
  | none => rfl
  | some moved => exact hnext moved

/-- Months are added to the date. -/
theorem addMonths (months : Int) :
    KeepsTime time (·.addMonths? months) (·.addMonths? months) := by
  intro date
  rfl

/-- Whole days are added to the date, unless parts of a microsecond are lost. -/
theorem addDays (htime : time.IsWholeMicro) (days : Int) :
    KeepsTime time (·.addDays? days) (·.addMicros? (days * microsPerDay)) := by
  intro date
  obtain ⟨found, hwhole, hmicro, hfound⟩ :=
    DateTime.exists_time (Int.natCast_nonneg time.microOfDay) (DateTime.microOfDay_lt htime)
  have hsame : found = time := DateTime.eq_of_microOfDay hwhole htime (Int.ofNat.inj hmicro)
  have hlt := DateTime.microOfDay_lt htime
  -- the days are the quotient by the length of a day, and the time is the rest
  have hdays : ((⟨date, time⟩ : DateTime).microNumber + days * microsPerDay) / microsPerDay
      = date.dayNumber + days := by
    unfold DateTime.microNumber microsPerDay at *
    dsimp only
    omega
  have hrest : ((⟨date, time⟩ : DateTime).microNumber + days * microsPerDay) % microsPerDay
      = time.microOfDay := by
    unfold DateTime.microNumber microsPerDay at *
    dsimp only
    omega
  rw [hsame] at hfound
  dsimp only
  rw [DateTime.addMicros?, DateTime.ofMicroNumber?, hdays, hrest, Date.addDays?]
  dsimp only
  rw [hfound]
  cases Date.ofDayNumber? (date.dayNumber + days) <;> rfl

end KeepsTime

/-! ## Times of day that are set -/

namespace TimeAdjustment

/-- Days are added, and below a day nothing. -/
theorem keepsTime_additions {time : TimeOfDay} (htime : time.IsWholeMicro) (days : Int) :
    KeepsTime time (·.addDays? days)
      (addAll? · (days * microsPerDay :: (replacing time).additions)) := by
  intro date
  have hdays : (⟨date, time⟩ : DateTime).addMicros? (days * microsPerDay)
      = (date.addDays? days).map (⟨·, time⟩) := KeepsTime.addDays htime days date
  dsimp only
  rw [addAll?, List.foldlM_cons, hdays]
  cases date.addDays? days with
  | none => rfl
  | some moved => exact addAll?_additions_replacing (t := ⟨moved, time⟩) htime

/-- With a time of day in the place of the base's, each step of an adjustment moves the date alone. -/
theorem adjust?_replacing_time {time : TimeOfDay} (htime : time.IsWholeMicro) (d : DateAdjustment)
    (base : DateTime) :
    (replacing time).adjust? d base = (d.adjust? base.date).map (⟨·, time⟩) := by
  have hmonths (months : Int) : KeepsTime time (·.addMonths? months) (·.addMonths? months) :=
    KeepsTime.addMonths months
  have hsteps := (hmonths (12 * d.addYears)).bind
    ((hmonths d.addMonths).bind (keepsTime_additions htime d.addDays))
  rw [adjust?, DateAdjustment.adjust?]
  cases d.override? base.date with
  | none => rfl
  | some date =>
      rw [Option.bind_eq_bind, Option.bind_some, addAll?_overrides_replacing htime]
      exact hsteps date

/-- Overrides of every field of whole microseconds leave nothing of the base but a year that is not
told. -/
theorem adjust?_replacing {t : DateTime} (ht : t.time.IsWholeMicro) (base : DateTime) :
    (replacing t.time).adjust? (DateAdjustment.replacing t.date) base
      = some ⟨t.date.resolve base.date, t.time⟩ := by
  rw [adjust?_replacing_time ht, DateAdjustment.adjust?_replacing]
  rfl

/-- The whole time of day overridden, nothing added to it. -/
def setting (hour minute second micro : Nat) : TimeAdjustment :=
  ⟨some hour, some minute, some second, some micro, 0, 0, 0, 0⟩

section

variable {hour minute second micro : Nat} (hhour : hour < 24) (hminute : minute < 60)
  (hsecond : second < 60) (hmicro : micro < 1000000)

include hhour hminute hsecond hmicro

/-- Fields in their ranges are those of a time of day. -/
theorem exists_setting : ∃ time : TimeOfDay,
    TimeOfDay.of? hour minute second (micro * 1000) = some time ∧ time.IsWholeMicro ∧
      setting hour minute second micro = replacing time := by
  have hvalid : TimeOfDay.Valid (hour * 3600 + minute * 60 + second) (micro * 1000) := by
    unfold TimeOfDay.Valid secondsPerDay nanosPerSecond
    omega
  refine ⟨⟨_, _, hvalid⟩, ?_, ?_, ?_⟩
  · rw [TimeOfDay.of?, if_pos ⟨hhour, hminute, hsecond⟩]
    exact dif_pos hvalid
  · unfold TimeOfDay.IsWholeMicro nanosPerSecond
    dsimp only
    omega
  · unfold setting replacing TimeOfDay.hour TimeOfDay.minute TimeOfDay.second TimeOfDay.micros
    dsimp only
    have hh : (hour * 3600 + minute * 60 + second) / 3600 = hour := by omega
    have hm : (hour * 3600 + minute * 60 + second) / 60 % 60 = minute := by omega
    have hs : (hour * 3600 + minute * 60 + second) % 60 = second := by omega
    rw [hh, hm, hs, Nat.mul_div_cancel micro (by decide)]

/-- **With the whole time of day set, an adjustment of a date-time is the adjustment of its date, at that
time of day**, and there is none of the one exactly when there is none of the other. -/
theorem adjust?_setting (d : DateAdjustment) (base : DateTime) : ∃ time : TimeOfDay,
    TimeOfDay.of? hour minute second (micro * 1000) = some time ∧
      (setting hour minute second micro).adjust? d base = (d.adjust? base.date).map (⟨·, time⟩) ∧
      ((setting hour minute second micro).adjust? d base = .none ↔ d.adjust? base.date = .none) := by
  obtain ⟨time, hof, hwhole, hsetting⟩ := exists_setting hhour hminute hsecond hmicro
  have hadjust := adjust?_replacing_time hwhole d base
  refine ⟨time, hof, ?_, ?_⟩
  · rw [hsetting, hadjust]
  · rw [hsetting, hadjust, Option.map_eq_none_iff]

end

/-- From a leap second of a leap day, a year back and a month and three days on, at the last microsecond of
the day. -/
theorem adjust?_setting_leapDay :
    let d : DateAdjustment := ⟨.none, .none, .none, -1, 1, 3⟩
    let base : DateTime := ⟨⟨2024, 2, 29, by decide⟩, ⟨86399, 1500000000, by decide⟩⟩
    (23 < 24 ∧ 59 < 60 ∧ 999999 < 1000000) ∧
      d.adjust? base.date = some ⟨2023, 3, 31, by decide⟩ ∧
      ∃ time : TimeOfDay, TimeOfDay.of? 23 59 59 (999999 * 1000) = some time ∧
        (setting 23 59 59 999999).adjust? d base = (d.adjust? base.date).map (⟨·, time⟩) ∧
        ((setting 23 59 59 999999).adjust? d base = .none ↔ d.adjust? base.date = .none) := by
  intro d base
  refine ⟨by decide, by decide, ?_⟩
  exact adjust?_setting (by decide) (by decide) (by decide) (by decide) d base

end TimeAdjustment

/-! ## Overrides counted from the first day of a year -/

/-- The first of January. -/
def Date.startOfYear {year : Int} (h : firstYear ≤ year ∧ year ≤ lastYear) : Date :=
  ⟨year, 1, 1, h.1, h.2, by decide, by decide, by decide, by simp [daysInMonth]⟩

namespace DateAdjustment

section

variable {year : Int} (hyear : firstYear ≤ year ∧ year ≤ lastYear)

include hyear

/-- Overrides of year, month and day are months and days after the first day of the year. -/
theorem override?_startOfYear {month : Int} (hmonth : InInt64 (month - 1)) (day : Int) (base : Date)
    (addYears addMonths addDays : Int) :
    (⟨some year, some month, some day, addYears, addMonths, addDays⟩ : DateAdjustment).override? base
      = ((Date.startOfYear hyear).addMonths? (month - 1)).bind (·.addDays? (day - 1)) := by
  have hindex : (Date.startOfYear hyear).monthIndex = 12 * year := by
    simp [Date.startOfYear, Date.monthIndex]
  rw [override?, firstOfMonth?]
  dsimp only [Option.getD_some]
  rw [if_pos hmonth, Date.addMonths?, hindex]
  rfl

/-- **Overrides roll over as additions do.**  A month and a day that override those of the base are as many
months and days after the first day of the year, in and out of their ranges, and there is no date of the
one kind exactly when there is none of the other. -/
theorem adjust?_rollOver (base : Date) (month day : Int64) (hmonth : month ≠ Int64.minValue) :
    (⟨some year, some month.toInt, some day.toInt, 0, 0, 0⟩ : DateAdjustment).adjust? base
      = (⟨some year, some 1, some 1, 0, month.toInt - 1, day.toInt - 1⟩ : DateAdjustment).adjust?
          base := by
  have hrange : InInt64 (month.toInt - 1) := by
    have hne : month.toInt ≠ Int64.minValue.toInt := fun heq => hmonth (Int64.toInt_inj.1 heq)
    have hleast : Int64.minValue.toInt = -9223372036854775808 := by decide
    obtain ⟨hlow, hhigh⟩ := inInt64_toInt month
    constructor <;> omega
  have hstart : ((Date.startOfYear hyear).addMonths? (1 - 1)).bind (·.addDays? (1 - 1))
      = some (Date.startOfYear hyear) := by
    rw [Int.sub_self, Date.addMonths?_zero, Option.bind_some, Date.addDays?_zero]
  rw [adjust?_of_no_additions, override?_startOfYear hyear hrange, adjust?,
    override?_startOfYear hyear (by decide), hstart]
  simp only [Option.bind_eq_bind, Option.bind_some, Int.mul_zero, Date.addMonths?_zero]

end

/-- A month before the year, and a day past the end of the year that it leads to. -/
theorem adjust?_rollOver_negative :
    let base : Date := ⟨2020, 5, 5, by decide⟩
    (firstYear ≤ -1 ∧ -1 ≤ lastYear ∧ (-30 : Int64) ≠ Int64.minValue) ∧
      (⟨some (-1), some (-30 : Int64).toInt, some (400 : Int64).toInt, 0, 0, 0⟩ :
          DateAdjustment).adjust? base = some ⟨-3, 7, 5, by decide⟩ ∧
      (⟨some (-1), some (-30 : Int64).toInt, some (400 : Int64).toInt, 0, 0, 0⟩ :
          DateAdjustment).adjust? base
        = (⟨some (-1), some 1, some 1, 0, (-30 : Int64).toInt - 1, (400 : Int64).toInt - 1⟩ :
            DateAdjustment).adjust? base := by
  intro base
  refine ⟨by decide, by decide, ?_⟩
  exact adjust?_rollOver (by decide) base (-30) 400 (by decide)

end DateAdjustment

end Latent

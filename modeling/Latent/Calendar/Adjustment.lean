import Latent.Calendar.Time
import Latent.Numeral.Word

/-!
# Adjustments

An adjustment overrides fields of a date or date-time and then adds to it.  An override outside the
range of its field rolls over into the next larger field, except that a day kept from the base is
clamped to the month.  Years and months are added as whole months; everything else as exact days and
microseconds.  An adjustment fails when one of its steps leaves the calendar.
-/

namespace Latent

/-- Overrides and additions for the date. -/
structure DateAdjustment where
  year : Option Int
  month : Option Int
  day : Option Int
  addYears : Int
  addMonths : Int
  addDays : Int
  deriving DecidableEq, Repr

/-- Overrides and additions for the time of day. -/
structure TimeAdjustment where
  hour : Option Int
  minute : Option Int
  second : Option Int
  micros : Option Int
  addHours : Int
  addMinutes : Int
  addSeconds : Int
  addMicros : Int
  deriving DecidableEq, Repr

namespace DateAdjustment

/-- The first day of the month that the overrides ask for.  Months after January are counted in 64
bits: there is no month when the count does not fit. -/
def firstOfMonth? (a : DateAdjustment) (base : Date) : Option Date :=
  let months := a.month.getD base.month - 1
  if InInt64 months then Date.ofMonthIndex? (12 * a.year.getD base.year + months) 1 else none

/-- The base with the overrides alone. -/
def override? (a : DateAdjustment) (base : Date) : Option Date := do
  let first ← a.firstOfMonth? base
  match a.day with
  | some day => first.addDays? (day - 1)
  | none => Date.ofMonthIndex? first.monthIndex base.day

/-- The base with the overrides and then the additions: years, months, days. -/
def adjust? (a : DateAdjustment) (base : Date) : Option Date := do
  let date ← a.override? base
  let date ← date.addMonths? (12 * a.addYears)
  let date ← date.addMonths? a.addMonths
  date.addDays? a.addDays

end DateAdjustment

namespace TimeAdjustment

/-- The hours, minutes, seconds and microseconds after midnight that the overrides ask for, each in
microseconds. -/
def overrides (a : TimeAdjustment) (base : TimeOfDay) : List Int :=
  [a.hour.getD base.hour * 3600000000, a.minute.getD base.minute * 60000000,
    a.second.getD base.second * 1000000, a.micros.getD base.micros]

/-- The additions below a day, each in microseconds. -/
def additions (a : TimeAdjustment) : List Int :=
  [a.addHours * 3600000000, a.addMinutes * 60000000, a.addSeconds * 1000000, a.addMicros]

/-- A date-time and several steps of microseconds, each of which stays in the calendar. -/
def addAll? (t : DateTime) (steps : List Int) : Option DateTime :=
  steps.foldlM DateTime.addMicros? t

/-- The base with both overrides and then both additions: years, months, days, and down to
microseconds. -/
def adjust? (a : TimeAdjustment) (d : DateAdjustment) (base : DateTime) : Option DateTime := do
  let date ← d.override? base.date
  let t ← addAll? (.atMidnight date) (a.overrides base.time)
  let t ← t.addMonths? (12 * d.addYears)
  let t ← t.addMonths? d.addMonths
  addAll? t (d.addDays * microsPerDay :: a.additions)

end TimeAdjustment

end Latent

/-!
# Dates

Days of the proleptic Gregorian calendar, with a year zero, from `-262143-01-01` to `262142-12-31`.
A date has a *day number*, counted from 1970-01-01, and moves by days and by months.  A move by
months keeps the day of the month, or takes the last day of a month that is too short for it.
-/

namespace Latent

/-- Every fourth year, but of the centuries only every fourth. -/
def isLeapYear (year : Int) : Bool :=
  year % 4 = 0 && (year % 100 ≠ 0 || year % 400 = 0)

/-- The number of days of a month, counted from `1`. -/
def daysInMonth (year : Int) (month : Nat) : Nat :=
  if month = 2 then (if isLeapYear year then 29 else 28)
  else if month = 4 ∨ month = 6 ∨ month = 9 ∨ month = 11 then 30
  else 31

/-- The first year of the calendar. -/
def firstYear : Int := -262143

/-- The last year of the calendar. -/
def lastYear : Int := 262142

/-- The calendar has this day. -/
def Date.Valid (year : Int) (month day : Nat) : Prop :=
  firstYear ≤ year ∧ year ≤ lastYear ∧ 1 ≤ month ∧ month ≤ 12 ∧
    1 ≤ day ∧ day ≤ daysInMonth year month

instance (year : Int) (month day : Nat) : Decidable (Date.Valid year month day) :=
  inferInstanceAs (Decidable (_ ∧ _))

/-- A day of the calendar. -/
structure Date where
  year : Int
  month : Nat
  day : Nat
  valid : Date.Valid year month day
  deriving DecidableEq

/-! ## Counting days -/

/-- The days from the start of year zero to the start of a year. -/
def daysBeforeYear (year : Int) : Int :=
  365 * year + (year + 3) / 4 - (year + 99) / 100 + (year + 399) / 400

/-- The days from the start of a year to the start of a month. -/
def daysBeforeMonth (year : Int) : Nat → Nat
  | 0 => 0
  | 1 => 0
  | month + 1 => daysBeforeMonth year month + daysInMonth year month

/-- The day number of 1970-01-01, counted from the start of year zero. -/
def epochDay : Int := daysBeforeYear 1970

/-- The year that holds a day counted from the start of year zero.  A year has 146097/400 days on
average, so the estimate is off by one at most. -/
def yearOfDay (day : Int) : Int :=
  let estimate := 400 * day / 146097
  if daysBeforeYear (estimate + 1) ≤ day then estimate + 1
  else if day < daysBeforeYear estimate then estimate - 1
  else estimate

/-- The last of the first `month` months that starts on or before a day of the year, counted from
`0`. -/
def monthOfDay (year : Int) (dayOfYear : Nat) : Nat → Nat
  | 0 => 0
  | month + 1 =>
    if daysBeforeMonth year (month + 1) ≤ dayOfYear then month + 1
    else monthOfDay year dayOfYear month

namespace Date

/-- The day that days are counted from. -/
instance : Inhabited Date := ⟨⟨1970, 1, 1, by decide⟩⟩

/-- The date of a year, month and day, when the calendar has it. -/
def of? (year : Int) (month day : Nat) : Option Date :=
  if valid : Valid year month day then some ⟨year, month, day, valid⟩ else none

/-- Days since 1970-01-01. -/
def dayNumber (d : Date) : Int :=
  daysBeforeYear d.year + daysBeforeMonth d.year d.month + (d.day - 1) - epochDay

/-- The date of a day number, when it is in the calendar. -/
def ofDayNumber? (n : Int) : Option Date :=
  let day := n + epochDay
  let year := yearOfDay day
  let dayOfYear := (day - daysBeforeYear year).toNat
  let month := monthOfDay year dayOfYear 12
  of? year month (dayOfYear - daysBeforeMonth year month + 1)

/-- The date some days later, or earlier when the number is negative. -/
def addDays? (d : Date) (days : Int) : Option Date := ofDayNumber? (d.dayNumber + days)

/-- Months since the start of year zero. -/
def monthIndex (d : Date) : Int := 12 * d.year + d.month - 1

/-- The given day of a month counted from the start of year zero, or the last one of a shorter
month. -/
def ofMonthIndex? (index : Int) (day : Nat) : Option Date :=
  let year := index / 12
  let month := (index % 12).toNat + 1
  of? year month (min day (daysInMonth year month))

/-- The date some months later, or earlier when the number is negative. -/
def addMonths? (d : Date) (months : Int) : Option Date :=
  ofMonthIndex? (d.monthIndex + months) d.day

end Date

end Latent

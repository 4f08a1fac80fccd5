import Latent.Calendar.Date

/-!
# Times of day and date-times

A time of day is a second of the day and nanoseconds of that second.  The last second of a minute may
be followed by a leap second, which counts as further nanoseconds of it.  A date-time is a date and a
time of day; its *microsecond number* counts whole microseconds from 1970-01-01.
-/

namespace Latent

/-- The seconds of a day, without leap seconds. -/
def secondsPerDay : Nat := 86400

/-- The microseconds of a day. -/
def microsPerDay : Int := 86400000000

/-- The nanoseconds of a second. -/
def nanosPerSecond : Nat := 1000000000

/-- Nanoseconds of a second of the day: less than a second, or less than two in the last second of a
minute. -/
def TimeOfDay.Valid (second nanos : Nat) : Prop :=
  second < secondsPerDay ∧
    (nanos < nanosPerSecond ∨ (second % 60 = 59 ∧ nanos < 2 * nanosPerSecond))

instance (second nanos : Nat) : Decidable (TimeOfDay.Valid second nanos) :=
  inferInstanceAs (Decidable (_ ∧ _))

/-- A time of day. -/
structure TimeOfDay where
  secondOfDay : Nat
  nanos : Nat
  valid : TimeOfDay.Valid secondOfDay nanos
  deriving DecidableEq

namespace TimeOfDay

/-- The start of the day. -/
def midnight : TimeOfDay := ⟨0, 0, by decide⟩

/-- The time of day that a date without one has. -/
instance : Inhabited TimeOfDay := ⟨midnight⟩

/-- The time of a second of the day and its nanoseconds. -/
def ofSecond? (second nanos : Nat) : Option TimeOfDay :=
  if valid : Valid second nanos then some ⟨second, nanos, valid⟩ else none

/-- The time of an hour, minute, second and nanoseconds. -/
def of? (hour minute second nanos : Nat) : Option TimeOfDay :=
  if hour < 24 ∧ minute < 60 ∧ second < 60 then
    ofSecond? (hour * 3600 + minute * 60 + second) nanos
  else none

/-- The hour of the day. -/
def hour (t : TimeOfDay) : Nat := t.secondOfDay / 3600

/-- The minute of the hour. -/
def minute (t : TimeOfDay) : Nat := t.secondOfDay / 60 % 60

/-- The second of the minute; a leap second is the last one. -/
def second (t : TimeOfDay) : Nat := t.secondOfDay % 60

/-- Whole microseconds of the second. -/
def micros (t : TimeOfDay) : Nat := t.nanos / 1000

/-- Whole microseconds since midnight. -/
def microOfDay (t : TimeOfDay) : Nat := t.secondOfDay * 1000000 + t.micros

end TimeOfDay

/-- A date and a time of day. -/
structure DateTime where
  date : Date
  time : TimeOfDay
  deriving DecidableEq, Inhabited

namespace DateTime

/-- The start of a date. -/
def atMidnight (d : Date) : DateTime := ⟨d, .midnight⟩

/-- Whole microseconds since 1970-01-01. -/
def microNumber (t : DateTime) : Int := t.date.dayNumber * microsPerDay + t.time.microOfDay

/-- The date-time of a microsecond number, when it is in the calendar. -/
def ofMicroNumber? (n : Int) : Option DateTime := do
  let date ← Date.ofDayNumber? (n / microsPerDay)
  let micro := (n % microsPerDay).toNat
  let time ← TimeOfDay.ofSecond? (micro / 1000000) (micro % 1000000 * 1000)
  return ⟨date, time⟩

/-- The date-time some microseconds later, or earlier when the number is negative.  A leap second and
parts of a microsecond are not kept. -/
def addMicros? (t : DateTime) (micros : Int) : Option DateTime :=
  ofMicroNumber? (t.microNumber + micros)

/-- The date moved by months, the time of day kept. -/
def addMonths? (t : DateTime) (months : Int) : Option DateTime :=
  (t.date.addMonths? months).map fun date => ⟨date, t.time⟩

end DateTime

/-- What "today" and "now" mean to an evaluation. -/
structure Clock where
  today : Date
  now : DateTime
  deriving DecidableEq, Inhabited

/-- The clock stopped at an instant. -/
def Clock.stoppedAt (t : DateTime) : Clock := ⟨t.date, t⟩

end Latent

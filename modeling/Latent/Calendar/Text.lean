import Latent.Calendar.Duration
import Latent.Numeral.Word

/-!
# Calendar texts

ISO texts of dates and times, and counts of milliseconds.  A year has at least four digits, and a
sign when it is negative or has more than four.  A fraction of a second has three, six or nine
digits, the fewest that are exact.  A leap second is second 60.
-/

namespace Latent

/-- Digits of a number, with zeros in front up to a width. -/
def padded (width n : Nat) : List Char :=
  let digits := Nat.toDigits 10 n
  List.replicate (width - digits.length) '0' ++ digits

/-- A year, signed when it is negative or above 9999. -/
def yearText (year : Int) : List Char :=
  let sign := if year < 0 then ['-'] else if 9999 < year then ['+'] else []
  sign ++ padded 4 year.natAbs

/-- `2020-02-29` -/
def Date.text (d : Date) : List Char :=
  yearText d.year ++ '-' :: padded 2 d.month ++ '-' :: padded 2 d.day

/-- The fraction of a second: nothing, or a point and digits. -/
def fractionText (nanos : Nat) : List Char :=
  if nanos = 0 then []
  else if nanos % 1000000 = 0 then '.' :: padded 3 (nanos / 1000000)
  else if nanos % 1000 = 0 then '.' :: padded 6 (nanos / 1000)
  else '.' :: padded 9 nanos

/-- `23:59:58.25` is `23:59:58.250`; half a second into a leap second is `23:59:60.500`. -/
def TimeOfDay.text (t : TimeOfDay) : List Char :=
  padded 2 t.hour ++ ':' :: padded 2 t.minute ++ ':' ::
    padded 2 (t.second + t.nanos / nanosPerSecond) ++ fractionText (t.nanos % nanosPerSecond)

/-- `2020-02-29T23:59:58.000001` -/
def DateTime.text (t : DateTime) : List Char := t.date.text ++ 'T' :: t.time.text

/-! ## Milliseconds -/

/-- Milliseconds since 1970-01-01, of whole microseconds. -/
def DateTime.millis (t : DateTime) : Binary64 := .ofInt t.microNumber / 1000

/-- The milliseconds of a date are those of its midnight. -/
def Date.millis (d : Date) : Binary64 := (DateTime.atMidnight d).millis

/-- Milliseconds since midnight. -/
def TimeOfDay.millis (t : TimeOfDay) : Binary64 :=
  .ofInt t.secondOfDay * 1000 + .ofInt t.micros / 1000

/-- Milliseconds of a duration.  Whole microseconds are taken while they are less than `2^63`, whole
milliseconds beyond. -/
def Duration.millis (d : Duration) : Binary64 :=
  if InInt64 d.micros then .ofInt d.micros / 1000
  else .ofInt (d.nanos.tdiv 1000000)

end Latent

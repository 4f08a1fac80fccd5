import Latent.Calendar.Time
import Latent.Binary64.Rounding

/-!
# Durations

A whole number of nanoseconds, of either sign, of at most `2^63 - 1` milliseconds.
-/

namespace Latent

/-- The longest duration, in nanoseconds. -/
def Duration.longest : Int := 9223372036854775807 * 1000000

/-- A length of time. -/
structure Duration where
  nanos : Int
  inRange : -Duration.longest ≤ nanos ∧ nanos ≤ Duration.longest
  deriving DecidableEq

namespace Duration

/-- No time at all. -/
instance : Inhabited Duration := ⟨⟨0, by decide⟩⟩

/-- The duration of a number of nanoseconds, when it is not too long. -/
def ofNanos? (nanos : Int) : Option Duration :=
  if inRange : -longest ≤ nanos ∧ nanos ≤ longest then some ⟨nanos, inRange⟩ else none

/-- The duration of no time at all. -/
def isZero (d : Duration) : Bool := d.nanos = 0

/-- Whole microseconds, towards zero. -/
def micros (d : Duration) : Int := d.nanos.tdiv 1000

/-- Days, seconds and microseconds, of a duration or of a number of microseconds. -/
structure Components where
  days : Int
  seconds : Int
  micros : Int
  deriving DecidableEq, Repr

/-- The whole microseconds split so that a day has all its seconds and a second all its microseconds:
only the days may be negative. -/
def components (d : Duration) : Components :=
  ⟨d.micros / microsPerDay, d.micros / 1000000 % secondsPerDay, d.micros % 1000000⟩

/-- The duration of so many days, seconds and microseconds, rounded to a whole microsecond, a half
away from zero.  The sum is taken in binary64; there is no duration for one of `2^63` or more. -/
def ofComponents? (days seconds micros : Binary64) : Option Duration :=
  let total := days * 86400000000 + seconds * 1000000 + micros
  if total.belowPowerOfTwo 63 then total.nearestInt?.bind fun n => ofNanos? (n * 1000) else none

end Duration

end Latent

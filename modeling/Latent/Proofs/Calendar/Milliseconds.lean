import Latent.Calendar.Text
import Latent.Proofs.Binary64.Separation
import Latent.Proofs.Calendar.Steps

/-!
# Milliseconds of dates

The microseconds of a date take up to 63 bits, but a day has a multiple of `2^13` of them, so binary64 holds
them exactly, and their thousandth part too.  The milliseconds of dates are therefore in the order of the
calendar.
-/

namespace Latent

namespace Date

variable {d e : Date}

/-! ## The order of dates -/

/-- By year, then by month, then by day. -/
instance : LT Date where
  lt a b := a.year < b.year ∨
    a.year = b.year ∧ (a.month < b.month ∨ a.month = b.month ∧ a.day < b.day)

instance : DecidableLT Date := fun a b =>
  inferInstanceAs (Decidable (a.year < b.year ∨
    a.year = b.year ∧ (a.month < b.month ∨ a.month = b.month ∧ a.day < b.day)))

/-- The order is total. -/
theorem lt_iff_not_le : d < e ↔ ¬e ≤ d := by
  show (_ < _ ∨ _ = _ ∧ _) ↔ ¬(_ < _ ∨ _ = _ ∧ _)
  omega

theorem lt_iff_dayNumber : d < e ↔ d.dayNumber < e.dayNumber := by
  rw [lt_iff_not_le, le_iff_dayNumber, Int.not_le]

theorem eq_iff_dayNumber : d = e ↔ d.dayNumber = e.dayNumber :=
  ⟨congrArg dayNumber, dayNumber_injective⟩

/-- The second date is the day after the first: in its month, or else the first of the next month. -/
def IsFollowedBy (d e : Date) : Prop :=
  e.year = d.year ∧ e.month = d.month ∧ e.day = d.day + 1 ∨
    d.day = daysInMonth d.year d.month ∧ e.day = 1 ∧
      (e.year = d.year ∧ e.month = d.month + 1 ∨ d.month = 12 ∧ e.year = d.year + 1 ∧ e.month = 1)

instance (d e : Date) : Decidable (d.IsFollowedBy e) := inferInstanceAs (Decidable (_ ∨ _))

/-- Day numbers count days. -/
theorem dayNumber_of_isFollowedBy (h : d.IsFollowedBy e) : e.dayNumber = d.dayNumber + 1 := by
  obtain ⟨_, _, hmonth, _, hday, _⟩ := d.valid
  unfold dayNumber
  rcases h with ⟨hyear, hsame, hnext⟩ | ⟨hlast, hfirst, ⟨hyear, hnext⟩ | ⟨hdecember, hyear, hjanuary⟩⟩
  · rw [hyear, hsame, hnext]
    omega
  · rw [hyear, hnext, hfirst, hlast, daysBeforeMonth_succ _ hmonth]
    omega
  · -- a year is over when its thirteenth month would begin
    have htwelve : (1 : Nat) ≤ 12 := by decide
    have hend := daysBeforeMonth_succ d.year htwelve
    have hstart := daysBeforeYear_succ d.year
    have hzero : daysBeforeMonth (d.year + 1) 1 = 0 := rfl
    rw [daysBeforeMonth_thirteen] at hend
    rw [hyear, hjanuary, hfirst, hlast, hdecember, hzero, hstart]
    split at hend <;> simp only [*, if_true, if_false, Bool.false_eq_true] <;> omega

/-! ## Microseconds and milliseconds -/

/-- The milliseconds of a day. -/
def millisPerDay : Int := 86400000

theorem microNumber_atMidnight (d : Date) :
    (DateTime.atMidnight d).microNumber = d.dayNumber * microsPerDay := by
  have hmidnight : TimeOfDay.midnight.microOfDay = 0 := rfl
  show d.dayNumber * microsPerDay + (TimeOfDay.midnight.microOfDay : Int) = _
  rw [hmidnight]
  exact Int.add_zero _

/-- The microseconds of a date fit 64 bits. -/
theorem inInt64_microNumber (d : Date) : InInt64 (DateTime.atMidnight d).microNumber := by
  have hsize := DateTime.natAbs_microNumber_lt (DateTime.atMidnight d)
  constructor <;> omega

/-- The microseconds of a date end in zeros: a day has a multiple of `2^13` of them. -/
theorem isExact_micros (d : Date) : Binary64.IsExact (d.dayNumber * microsPerDay) := by
  have hsize := natAbs_dayNumber_lt d
  have hzeros : d.dayNumber * microsPerDay = d.dayNumber * 10546875 * 2 ^ 13 := by
    unfold microsPerDay
    omega
  rw [hzeros]
  exact Binary64.isExact_mul_two_pow (by omega) (by decide)

theorem isExact_millis (d : Date) : Binary64.IsExact (d.dayNumber * millisPerDay) := by
  have hsize := natAbs_dayNumber_lt d
  refine Binary64.isExact_of_le ?_
  unfold millisPerDay
  omega

/-- **The milliseconds of a date are exact.** -/
theorem millis_eq (d : Date) : d.millis = .ofInt (d.dayNumber * millisPerDay) := by
  have hmicros : d.dayNumber * microsPerDay = d.dayNumber * millisPerDay * 1000 := by
    unfold microsPerDay millisPerDay
    omega
  have hexact := isExact_micros d
  rw [hmicros] at hexact
  rw [millis, DateTime.millis, microNumber_atMidnight, hmicros]
  exact Binary64.ofInt_mul_div (isExact_millis d) (Binary64.isExact_of_le (by decide)) hexact (by decide)

theorem mul_millisPerDay_lt_iff {m n : Int} : m * millisPerDay < n * millisPerDay ↔ m < n := by
  unfold millisPerDay
  omega

/-- **The milliseconds of dates are in the order of the calendar.** -/
theorem lt_millis (d e : Date) : d.millis.lt e.millis = decide (d < e) := by
  rw [millis_eq, millis_eq, Binary64.lt_ofInt (isExact_millis d) (isExact_millis e), decide_eq_decide,
    mul_millisPerDay_lt_iff, lt_iff_dayNumber]

theorem le_millis (d e : Date) : d.millis.le e.millis = decide (d ≤ e) := by
  rw [millis_eq, millis_eq, Binary64.le_ofInt (isExact_millis d) (isExact_millis e), decide_eq_decide,
    ← Int.not_lt, mul_millisPerDay_lt_iff, Int.not_lt, le_iff_dayNumber]

end Date

end Latent

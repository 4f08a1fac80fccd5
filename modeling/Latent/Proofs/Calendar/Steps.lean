import Latent.Proofs.Calendar.MicroNumber
import Latent.Proofs.Calendar.Moves

/-!
# Steps of date-times

Microseconds that are added to a date-time are added to its microsecond number
(`DateTime.addMicros?_eq_some_iff`), so a run of such steps adds their sum (`TimeAdjustment.addAll?_sum`).

The calendar has an end on both sides.  A step from one of its dates to another is shorter than the
calendar, by whatever it is counted: this module bounds the months, the days and the microseconds that can be
added at all.
-/

namespace Latent

namespace DateTime

variable {t u : DateTime} {n : Int}

/-! ## Microseconds and months -/

theorem ofMicroNumber?_eq_some_iff :
    ofMicroNumber? n = some t ↔ t.time.IsWholeMicro ∧ t.microNumber = n := by
  constructor
  · intro h
    have hpos : (0 : Int) < microsPerDay := by decide
    obtain ⟨time, hwhole, hmicro, htime⟩ :=
      exists_time (Int.emod_nonneg n hpos.ne') (Int.emod_lt_of_pos n hpos)
    unfold ofMicroNumber? at h
    dsimp only at h
    rw [htime] at h
    obtain ⟨date, hdate, h⟩ := Option.bind_eq_some_iff.1 h
    cases h
    have hnumber := Date.ofDayNumber?_eq_some_iff.1 hdate
    refine ⟨hwhole, ?_⟩
    rw [microNumber, hmicro, hnumber, Int.mul_comm]
    exact Int.mul_ediv_add_emod n microsPerDay
  · rintro ⟨hwhole, rfl⟩
    exact ofMicroNumber?_microNumber hwhole

theorem addMicros?_eq_some_iff :
    t.addMicros? n = some u ↔ u.time.IsWholeMicro ∧ u.microNumber = t.microNumber + n :=
  ofMicroNumber?_eq_some_iff

/-- The date is moved, and the time of day kept. -/
structure IsMoved (t : DateTime) (n : Int) (u : DateTime) : Prop where
  date : t.date.IsMoved n u.date
  time : u.time = t.time

theorem addMonths?_eq_some_iff : t.addMonths? n = some u ↔ t.IsMoved n u := by
  rw [addMonths?, Option.map_eq_some_iff]
  constructor
  · rintro ⟨date, hdate, rfl⟩
    exact ⟨Date.addMonths?_eq_some_iff.1 hdate, rfl⟩
  · rintro ⟨hdate, htime⟩
    refine ⟨u.date, Date.addMonths?_eq_some_iff.2 hdate, ?_⟩
    rw [← htime]

end DateTime

/-- Each step starts from whole microseconds and leads to them, and the run adds the sum of its steps. -/
theorem TimeAdjustment.addAll?_sum {t u : DateTime} {steps : List Int} (ht : t.time.IsWholeMicro)
    (h : addAll? t steps = some u) :
    u.time.IsWholeMicro ∧ u.microNumber = t.microNumber + steps.sum := by
  induction steps generalizing t with
  | nil =>
      cases h
      exact ⟨ht, by rw [List.sum_nil, Int.add_zero]⟩
  | cons step rest ih =>
      rw [addAll?, List.foldlM_cons] at h
      obtain ⟨next, hstep, hrest⟩ := Option.bind_eq_some_iff.1 h
      obtain ⟨hwhole, hnumber⟩ := DateTime.addMicros?_eq_some_iff.1 hstep
      obtain ⟨hlast, hsum⟩ := ih hwhole hrest
      refine ⟨hlast, ?_⟩
      rw [hsum, hnumber, List.sum_cons, Int.add_assoc]

/-! ## The length of the calendar -/

namespace Date

variable {d e : Date} {n : Int}

/-- Fewer months than this lie between a date and the start of year zero. -/
theorem natAbs_monthIndex_lt (d : Date) : d.monthIndex.natAbs < 4000000 := by
  obtain ⟨hyear, hyear', hmonth, hmonth', _⟩ := d.valid
  unfold firstYear at hyear
  unfold lastYear at hyear'
  unfold monthIndex
  omega

/-- Fewer days than this lie between a date and 1970. -/
theorem natAbs_dayNumber_lt (d : Date) : d.dayNumber.natAbs < 100000000 := by
  obtain ⟨hyear, hyear', _⟩ := d.valid
  obtain ⟨hday, hmonth, hlast⟩ := dayOfYear_bounds d
  unfold firstYear at hyear
  unfold lastYear at hyear'
  have hepoch : epochDay = 719528 := by decide
  unfold dayNumber
  unfold daysBeforeYear at *
  omega

theorem IsMoved.natAbs_lt (h : d.IsMoved n e) : n.natAbs < 8000000 := by
  have hindex := h.monthIndex
  have hd := natAbs_monthIndex_lt d
  have he := natAbs_monthIndex_lt e
  omega

theorem natAbs_lt_of_addDays? (h : d.addDays? n = some e) : n.natAbs < 200000000 := by
  have hnumber := addDays?_eq_some_iff.1 h
  have hd := natAbs_dayNumber_lt d
  have he := natAbs_dayNumber_lt e
  omega

end Date

namespace DateTime

variable {t u : DateTime} {n : Int}

/-- Fewer microseconds than this lie between a date-time and 1970. -/
theorem natAbs_microNumber_lt (t : DateTime) : t.microNumber.natAbs < 9000000000000000000 := by
  have hday := Date.natAbs_dayNumber_lt t.date
  obtain ⟨hsecond, hnanos⟩ := t.time.valid
  unfold secondsPerDay at hsecond
  unfold nanosPerSecond at hnanos
  unfold microNumber TimeOfDay.microOfDay TimeOfDay.micros microsPerDay
  omega

theorem natAbs_lt_of_addMicros? (h : t.addMicros? n = some u) : n.natAbs < 18000000000000000000 := by
  have hnumber := (addMicros?_eq_some_iff.1 h).2
  have ht := natAbs_microNumber_lt t
  have hu := natAbs_microNumber_lt u
  omega

end DateTime

end Latent

import Mathlib.Algebra.Order.BigOperators.Group.List
import Mathlib.Algebra.Ring.Int.Defs
import Latent.Proofs.Calendar.DayNumber

/-!
# Date-times and their microsecond numbers

A date-time of whole microseconds outside a leap second is told by its microsecond number.  Additions
that stay within one day therefore collapse to their sum, and overrides of every field of a time of day
lead from midnight to that time.
-/

namespace Latent

/-- Whole microseconds, and no leap second. -/
def TimeOfDay.IsWholeMicro (t : TimeOfDay) : Prop :=
  t.nanos < nanosPerSecond ∧ t.nanos % 1000 = 0

instance (t : TimeOfDay) : Decidable t.IsWholeMicro := inferInstanceAs (Decidable (_ ∧ _))

namespace DateTime

/-- Microseconds of a day, as a time of day. -/
theorem exists_time {micro : Int} (h : 0 ≤ micro) (h' : micro < microsPerDay) :
    ∃ time : TimeOfDay, time.IsWholeMicro ∧ (time.microOfDay : Int) = micro ∧
      TimeOfDay.ofSecond? (micro.toNat / 1000000) (micro.toNat % 1000000 * 1000) = some time := by
  unfold microsPerDay at h'
  have hvalid : TimeOfDay.Valid (micro.toNat / 1000000) (micro.toNat % 1000000 * 1000) := by
    unfold TimeOfDay.Valid secondsPerDay nanosPerSecond
    omega
  refine ⟨⟨_, _, hvalid⟩, ?_, ?_, dif_pos hvalid⟩
  · unfold TimeOfDay.IsWholeMicro nanosPerSecond
    dsimp only
    omega
  · unfold TimeOfDay.microOfDay TimeOfDay.micros
    dsimp only
    omega

/-- Times of whole microseconds are told apart by their microseconds since midnight. -/
theorem eq_of_microOfDay {s t : TimeOfDay} (hs : s.IsWholeMicro) (ht : t.IsWholeMicro)
    (h : s.microOfDay = t.microOfDay) : s = t := by
  obtain ⟨second, nanos, hv⟩ := s
  obtain ⟨second', nanos', hv'⟩ := t
  unfold TimeOfDay.IsWholeMicro nanosPerSecond at hs ht
  unfold TimeOfDay.microOfDay TimeOfDay.micros at h
  dsimp only at hs ht h
  have hsecond : second = second' := by omega
  have hnanos : nanos = nanos' := by omega
  subst hsecond hnanos
  rfl

/-- The microseconds since midnight stay below a day. -/
theorem microOfDay_lt {t : TimeOfDay} (ht : t.IsWholeMicro) :
    (t.microOfDay : Int) < microsPerDay := by
  obtain ⟨hsecond, _⟩ := t.valid
  unfold TimeOfDay.IsWholeMicro nanosPerSecond at ht
  unfold secondsPerDay at hsecond
  unfold TimeOfDay.microOfDay TimeOfDay.micros microsPerDay
  omega

/-- Microseconds counted from the start of a date stay in that date. -/
theorem ofMicroNumber?_of_day (d : Date) {micro : Int} (h : 0 ≤ micro) (h' : micro < microsPerDay) :
    ∃ t : DateTime, ofMicroNumber? (d.dayNumber * microsPerDay + micro) = some t ∧ t.date = d ∧
      t.time.IsWholeMicro ∧ (t.time.microOfDay : Int) = micro := by
  obtain ⟨time, hwhole, hmicro, htime⟩ := exists_time h h'
  have hdiv : (d.dayNumber * microsPerDay + micro) / microsPerDay = d.dayNumber := by
    unfold microsPerDay at *
    omega
  have hmod : (d.dayNumber * microsPerDay + micro) % microsPerDay = micro := by
    unfold microsPerDay at *
    omega
  refine ⟨⟨d, time⟩, ?_, rfl, hwhole, hmicro⟩
  unfold ofMicroNumber?
  rw [hdiv, hmod, Date.ofDayNumber?_dayNumber]
  dsimp only [Option.bind_eq_bind, Option.bind_some]
  rw [htime]
  rfl

/-- The microsecond number of whole microseconds leads back to the date-time. -/
theorem ofMicroNumber?_microNumber {t : DateTime} (h : t.time.IsWholeMicro) :
    ofMicroNumber? t.microNumber = some t := by
  obtain ⟨u, hu, hdate, hwhole, hmicro⟩ :=
    ofMicroNumber?_of_day t.date (Int.natCast_nonneg t.time.microOfDay) (microOfDay_lt h)
  have htime : u.time = t.time := eq_of_microOfDay hwhole h (Int.ofNat.inj hmicro)
  obtain ⟨date, time⟩ := u
  dsimp only at hdate htime
  rw [microNumber, hu, hdate, htime]

end DateTime

namespace TimeAdjustment

/-- Steps that are not negative and together stay within the day are one step. -/
theorem addAll?_within_day {t : DateTime} (ht : t.time.IsWholeMicro) (steps : List Int)
    (hsteps : ∀ step ∈ steps, 0 ≤ step) (hsum : t.time.microOfDay + steps.sum < microsPerDay) :
    addAll? t steps = DateTime.ofMicroNumber? (t.microNumber + steps.sum) := by
  -- the date stays, and with it the bound on what is still to be added
  induction steps generalizing t with
  | nil =>
      rw [List.sum_nil, Int.add_zero, DateTime.ofMicroNumber?_microNumber ht]
      rfl
  | cons step rest ih =>
      have hstep : 0 ≤ step := hsteps step List.mem_cons_self
      have hrest : ∀ step ∈ rest, 0 ≤ step := fun s hs => hsteps s (List.mem_cons_of_mem _ hs)
      have hrestSum : 0 ≤ rest.sum := List.sum_nonneg hrest
      rw [List.sum_cons] at hsum ⊢
      obtain ⟨u, hu, hdate, hwhole, hmicro⟩ :=
        DateTime.ofMicroNumber?_of_day t.date
          (show 0 ≤ (t.time.microOfDay : Int) + step by omega) (by omega)
      have hadd : t.addMicros? step = some u := by
        rw [DateTime.addMicros?, ← hu, DateTime.microNumber, Int.add_assoc]
      have hnumber : u.microNumber = t.microNumber + step := by
        rw [DateTime.microNumber, DateTime.microNumber, hdate, hmicro, Int.add_assoc]
      have hih := ih hwhole hrest (by omega)
      rw [hnumber, Int.add_assoc] at hih
      rw [← hih]
      unfold addAll?
      rw [List.foldlM_cons, hadd]
      rfl

/-- Every field overridden with those of a time of day, nothing added. -/
def replacing (t : TimeOfDay) : TimeAdjustment :=
  ⟨some t.hour, some t.minute, some t.second, some t.micros, 0, 0, 0, 0⟩

/-- The overrides of a time of day add up to its microseconds since midnight. -/
theorem sum_overrides_replacing (t base : TimeOfDay) :
    ((replacing t).overrides base).sum = t.microOfDay := by
  simp only [overrides, replacing, Option.getD_some, List.sum_cons, List.sum_nil]
  unfold TimeOfDay.hour TimeOfDay.minute TimeOfDay.second TimeOfDay.microOfDay
  omega

/-- Overrides of every field of whole microseconds lead from midnight to the time. -/
theorem addAll?_overrides_replacing {t : TimeOfDay} (ht : t.IsWholeMicro) (date : Date)
    (base : TimeOfDay) :
    addAll? (.atMidnight date) ((replacing t).overrides base) = some ⟨date, t⟩ := by
  have hstart : (DateTime.atMidnight date).time.IsWholeMicro := by
    exact (by decide : TimeOfDay.midnight.IsWholeMicro)
  have hbound := DateTime.microOfDay_lt ht
  have hnumber : (DateTime.atMidnight date).microNumber + (t.microOfDay : Int)
      = (⟨date, t⟩ : DateTime).microNumber := by
    simp only [DateTime.microNumber, DateTime.atMidnight, TimeOfDay.midnight,
      TimeOfDay.microOfDay, TimeOfDay.micros]
    omega
  rw [addAll?_within_day hstart, sum_overrides_replacing, hnumber]
  · exact DateTime.ofMicroNumber?_microNumber ht
  · simp only [overrides, replacing, Option.getD_some, List.mem_cons, List.not_mem_nil, or_false]
    rintro step (rfl | rfl | rfl | rfl) <;> omega
  · rw [sum_overrides_replacing]
    simp only [DateTime.atMidnight, TimeOfDay.midnight, TimeOfDay.microOfDay,
      TimeOfDay.micros] at *
    omega

/-- It adds nothing. -/
theorem addAll?_additions_replacing {t : DateTime} (ht : t.time.IsWholeMicro) :
    addAll? t (replacing t.time).additions = some t := by
  have hzero : (replacing t.time).additions = [0, 0, 0, 0] := by
    simp [additions, replacing]
  rw [hzero, addAll?_within_day ht [0, 0, 0, 0] (by simp)]
  · simpa using DateTime.ofMicroNumber?_microNumber ht
  · simpa using DateTime.microOfDay_lt ht

end TimeAdjustment

end Latent

import Latent.Proofs.Wire.CalendarRecords
import Latent.Proofs.Wire.Texts

/-!
# Calendar values as texts

Which dates, date-times and durations are decoded from their own text.  A date is, whatever the clock,
unless its year is zero; a duration of whole microseconds is when binary64 recombines its components
without loss.
-/

namespace Latent

namespace Value

/-! ## Dates and date-times -/

/-- The fields of a date are leaves. -/
theorem isLeaf_dateFields (d : Date) : ∀ field ∈ Json.dateFields d, field.isLeaf := by
  unfold Json.dateFields
  simp only [List.forall_mem_cons, Json.isLeaf_ofInt]
  simp [Json.isLeaf]

/-- So are those of a time of day. -/
theorem isLeaf_timeFields (t : TimeOfDay) : ∀ field ∈ Json.timeFields t, field.isLeaf := by
  unfold Json.timeFields
  simp only [List.forall_mem_cons, Json.isLeaf_ofInt]
  simp

/-- A date crosses the wire, its year zero taken for the current one. -/
theorem transports_date (scope : Scope) (d : Date) :
    Transports (.evaluating scope) (date d) (date (d.resolve scope.clock.today)) := by
  have htree : (date d).toJson = .ok (.tagged .date (Json.dateFields d)) := by rw [toJson]
  exact (transports_iff_carries htree (Nat.le_refl 7) (isLeaf_dateFields d)).2
    (carries_date_resolve scope d)

/-- So does a date-time of whole microseconds. -/
theorem transports_dateTime (scope : Scope) {t : DateTime} (hwhole : t.time.IsWholeMicro) :
    Transports (.evaluating scope) (dateTime t)
      (dateTime ⟨t.date.resolve scope.clock.now.date, t.time⟩) := by
  have htree : (dateTime t).toJson
      = .ok (.tagged .dateTime (Json.dateFields t.date ++ Json.timeFields t.time)) := by rw [toJson]
  have hfields : ∀ field ∈ Json.dateFields t.date ++ Json.timeFields t.time, field.isLeaf :=
    List.forall_mem_append.2 ⟨isLeaf_dateFields t.date, isLeaf_timeFields t.time⟩
  exact (transports_iff_carries htree (Nat.le_refl 15) hfields).2 (carries_dateTime_resolve scope hwhole)

/-- **Dates, and date-times of whole microseconds, survive transport.**  They do whatever the variables
and the clock, but for a year zero: a date of that year comes back in the year of the clock. -/
theorem decode_encode_calendar (scope : Scope) :
    (∀ d : Date, Transports (.evaluating scope) (date d) (date (d.resolve scope.clock.today))) ∧
      (∀ t : DateTime, t.time.IsWholeMicro → Transports (.evaluating scope) (dateTime t)
        (dateTime ⟨t.date.resolve scope.clock.now.date, t.time⟩)) ∧
      ∀ d base : Date, (d.year ≠ 0 → d.resolve base = d) ∧
        (d.year = 0 → (d.resolve base).year = base.year ∧
          ((d.resolve base).month = d.month ∧ (d.resolve base).day = d.day ∨
            d.month = 2 ∧ d.day = 29 ∧ daysInMonth base.year 2 = 28 ∧
              (d.resolve base).month = 3 ∧ (d.resolve base).day = 1)) :=
  ⟨transports_date scope, fun _ => transports_dateTime scope,
    fun _ base => ⟨fun h => Date.resolve_of_ne h base, fun h => Date.resolve_of_eq h base⟩⟩

/-- The last microsecond of the calendar, and a leap day before its year zero. -/
theorem decode_encode_calendar_ends :
    let t : DateTime := ⟨⟨262142, 12, 31, by decide⟩, ⟨86399, 999999000, by decide⟩⟩
    let leapDay : Date := ⟨-4, 2, 29, by decide⟩
    let scope : Scope := ⟨[("n", integer 1)], .stoppedAt ⟨⟨2023, 3, 15, by decide⟩, .midnight⟩⟩
    t.time.IsWholeMicro ∧ Transports (.evaluating scope) (dateTime t) (dateTime t) ∧
      leapDay.year ≠ 0 ∧ Transports (.evaluating scope) (date leapDay) (date leapDay) :=
  have htime := by decide
  ⟨htime, (decode_encode_calendar _).2.1 _ htime, by decide, (decode_encode_calendar _).1 _⟩

/-- A date of the year zero comes back in the year of the clock. -/
theorem decode_encode_yearZero :
    let d : Date := ⟨0, 5, 17, by decide⟩
    let scope : Scope := ⟨[], .stoppedAt ⟨⟨2024, 3, 15, by decide⟩, ⟨34200, 0, by decide⟩⟩⟩
    Transports (.evaluating scope) (date d) (date ⟨2024, 5, 17, by decide⟩) ∧
      ¬ Transports (.evaluating scope) (date d) (date d) := by
  intro d scope
  have hother : Transports (.evaluating scope) (date d) (date ⟨2024, 5, 17, by decide⟩) :=
    transports_date scope d
  refine ⟨hother, fun hself => ?_⟩
  have hdate : d = ⟨2024, 5, 17, by decide⟩ := Value.date.inj (hself.unique hother)
  exact absurd hdate (by decide)

/-! ## Durations -/

/-- So are the components of a duration. -/
theorem isLeaf_durationFields (d : Duration) : ∀ field ∈ Json.durationFields d, field.isLeaf := by
  unfold Json.durationFields
  simp only [List.forall_mem_cons, Json.isLeaf_ofInt]
  simp

/-- A duration comes back as the sum of its components. -/
theorem transports_duration (scope : Scope) (d : Duration) :
    Transports (.evaluating scope) (duration d) (ofDuration? d.recombined?) := by
  have htree : (duration d).toJson = .ok (.tagged .timeDelta (Json.durationFields d)) := by rw [toJson]
  exact (transports_iff_carries htree (Nat.le_refl 3) (isLeaf_durationFields d)).2
    (carries_duration_components scope d)

/-- A duration of whole microseconds comes back exactly when binary64 recombines it. -/
theorem transports_duration_iff (scope : Scope) {d : Duration} (hwhole : d.IsWholeMicro) :
    Transports (.evaluating scope) (duration d) (duration d) ↔ d.IsRecombined := by
  rw [← Duration.recombined?_eq_iff hwhole]
  constructor
  · intro hself
    have heq := hself.unique (transports_duration scope d)
    cases hsum : d.recombined? with
    | none =>
        rw [hsum] at heq
        cases heq
    | some other =>
        rw [hsum] at heq
        rw [Value.duration.inj heq]
  · intro hsum
    have hself := transports_duration scope d
    rwa [hsum] at hself

/-- **Durations of whole microseconds survive transport exactly when binary64 recombines them.**  It does up to
`2^53` microseconds, and short of `2^59` for the numbers of them that it holds, and for no others. -/
theorem decode_encode_duration (scope : Scope) {d : Duration} (hwhole : d.IsWholeMicro) :
    (Transports (.evaluating scope) (duration d) (duration d) ↔ d.IsRecombined) ∧
      (d.micros.natAbs ≤ 2 ^ 53 → d.IsRecombined) ∧
      (d.micros.natAbs + 1000000 ≤ 2 ^ 59 → (d.IsRecombined ↔ Binary64.IsExact d.micros)) :=
  ⟨transports_duration_iff scope hwhole, Duration.isRecombined_of_le,
    Duration.isRecombined_iff_isExact⟩

/-- A negative duration of more than `2^62` microseconds: its whole seconds are rounded, and the sum with
the rest is rounded back. -/
theorem decode_encode_duration_long :
    let d : Duration := ⟨-4611686018427388928000, by decide⟩
    let scope : Scope := default
    d.IsWholeMicro ∧ d.IsRecombined ∧ Transports (.evaluating scope) (duration d) (duration d) :=
  have hwhole := by decide
  have hrecombined := by decide +kernel
  ⟨hwhole, hrecombined, (decode_encode_duration _ hwhole).1.2 hrecombined⟩

/-- Of `2^53 + 1` microseconds one is lost.  A number that binary64 holds is missed when its whole seconds
are rounded down, and `2^63` microseconds come back as null. -/
theorem decode_encode_duration_lossy :
    let odd : Duration := ⟨9007199254740993000, by decide⟩
    let tie : Duration := ⟨576460752305000064000, by decide⟩
    let long : Duration := ⟨9223372036854775808000, by decide⟩
    (odd.IsWholeMicro ∧ tie.IsWholeMicro ∧ long.IsWholeMicro) ∧
      Transports (.evaluating default) (duration odd) (duration ⟨9007199254740992000, by decide⟩) ∧
      Transports (.evaluating default) (duration tie) (duration ⟨576460752304999936000, by decide⟩) ∧
      Transports (.evaluating default) (duration long) null ∧
      ¬ ∀ d : Duration, d.IsWholeMicro → Transports (.evaluating default) (duration d) (duration d) := by
  intro odd tie long
  have hodd : odd.recombined? = some ⟨9007199254740992000, by decide⟩ := by decide +kernel
  have htie : tie.recombined? = some ⟨576460752304999936000, by decide⟩ := by decide +kernel
  have hlong : long.recombined? = none := by decide +kernel
  have hlost := transports_duration default odd
  rw [hodd] at hlost
  have htied := transports_duration default tie
  rw [htie] at htied
  have hnull := transports_duration default long
  rw [hlong] at hnull
  refine ⟨by decide, hlost, htied, hnull, fun h => ?_⟩
  have hself := h long (by decide)
  have heq := hself.unique hnull
  cases heq

end Value

end Latent

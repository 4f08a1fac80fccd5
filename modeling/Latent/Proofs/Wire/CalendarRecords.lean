import Latent.Proofs.Calendar.Duration
import Latent.Proofs.Calendar.Adjustment
import Latent.Proofs.Evaluate.Operators
import Latent.Proofs.Wire.Carries

/-!
# Calendar values on the wire

A date, a date-time or a duration is written as the record of a node.  Evaluating that record gives the
value back, whatever the variables and the clock: every field is overridden, and nothing is added.  But a
year zero is no override: a date of that year comes back in the year of the clock.
-/

namespace Latent

/-! ## Whole numbers as fields -/

/-- A field can hold this whole number exactly, as an integer and as a binary64 number. -/
def IsSmall (i : Int) : Prop := i.natAbs ≤ 2 ^ 53

/-- Small numbers fit into 64 bits. -/
theorem IsSmall.inInt64 {i : Int} (h : IsSmall i) : InInt64 i := by
  unfold IsSmall at h
  constructor <;> omega

/-- They do so without loss. -/
theorem IsSmall.toInt_ofInt {i : Int} (h : IsSmall i) : (Int64.ofInt i).toInt = i :=
  Int64.toInt_ofInt_of_le h.inInt64.1 h.inInt64.2

namespace Value

/-- The value is written as the tree, and the tree is revived as the value in either way. -/
structure IsWrittenAs (v : Value) (tree : Json) : Prop where
  toJson : v.toJson = .ok tree
  revive (revival : Revival) : revive revival tree = .ok v

/-- Null is written as null, and revived from it. -/
theorem isWrittenAs_null : null.IsWrittenAs .null := ⟨rfl, fun _ => rfl⟩

/-- A whole number of 64 bits is written as itself. -/
theorem isWrittenAs_ofInt {i : Int} (h : InInt64 i) :
    (integer (Int64.ofInt i)).IsWrittenAs (.ofInt i) := by
  have hnumber : Json.ofInt i = .ofInt64 (Int64.ofInt i) := by
    simp only [Json.ofInt, dif_pos h.isWhole, Json.ofInt64, Json.Number.ofInt64,
      Int64.toInt_ofInt_of_le h.1 h.2]
  rw [hnumber]
  exact ⟨rfl, fun _ => congrArg Except.ok (toValue_ofInt64 _)⟩

variable {values : List Value} {trees : List Json}

/-- Values are written as their trees, one by one. -/
theorem itemsToJson_of_isWrittenAs (h : List.Forall₂ IsWrittenAs values trees) :
    itemsToJson values = .ok trees := by
  induction h with
  | nil => rfl
  | cons hfirst _ ih =>
      rw [itemsToJson, hfirst.toJson, ih]
      rfl

/-- Trees are revived as their values, one by one. -/
theorem reviveItems_of_isWrittenAs (revival : Revival) (h : List.Forall₂ IsWrittenAs values trees) :
    reviveItems revival trees = .ok values := by
  induction h with
  | nil => rfl
  | cons hfirst _ ih => exact reviveItems_cons (hfirst.revive revival) ih

end Value

namespace Fields

variable {fields : Fields} {key : String} {i : Int}

/-- The whole part of a small whole number is that number. -/
theorem whole?_eq (h : fields.value key = .integer (Int64.ofInt i)) (hi : IsSmall i) :
    fields.whole? key = some i := by
  have hclamp : (Int64.ofIntClamp i).toInt = i :=
    Int64.toInt_ofIntClamp hi.inInt64.1 (Int.le_of_lt_add_one hi.inInt64.2)
  rw [whole?, h, Value.toBinary64?, hi.toInt_ofInt, Option.bind_some,
    Binary64.truncate?_ofInt (Binary64.isExact_of_le hi), Option.map_some, hclamp]

/-- A small number is added as it is. -/
theorem addition_eq (h : fields.value key = .integer (Int64.ofInt i)) (hi : IsSmall i) :
    fields.addition key = i := by
  rw [addition, whole?_eq h hi, Option.getD_some]

/-- An override is taken unless it is zero. -/
theorem override?_eq (h : fields.value key = .integer (Int64.ofInt i)) (hi : IsSmall i) :
    fields.override? key = (some i).filter (· ≠ 0) := by
  rw [override?, whole?_eq h hi]

/-- A small number is a component as it is. -/
theorem component_eq (h : fields.value key = .integer (Int64.ofInt i)) (hi : IsSmall i) :
    fields.component key = .ofInt i := by
  rw [component, h, Value.toBinary64?, hi.toInt_ofInt, Option.getD_some]

end Fields

namespace Value

/-! ## Dates -/

/-- The revived fields of the record of a date. -/
def dateValues (d : Date) : List Value :=
  [integer (Int64.ofInt d.year), integer (Int64.ofInt d.month), integer (Int64.ofInt d.day),
    integer (Int64.ofInt 0), integer (Int64.ofInt 0), integer (Int64.ofInt 0), null]

/-- The fields of a date are small. -/
theorem isSmall_date (d : Date) : IsSmall d.year ∧ IsSmall d.month ∧ IsSmall d.day := by
  obtain ⟨hyear, hyear', _, hmonth, _, hday⟩ := d.valid
  have hmax : daysInMonth d.year d.month ≤ 31 := by
    unfold daysInMonth
    split
    · split <;> decide
    · split <;> decide
  unfold firstYear at hyear
  unfold lastYear at hyear'
  unfold IsSmall
  omega

theorem isSmall_zero : IsSmall 0 := Nat.zero_le _

theorem isWrittenAs_zero : (integer (Int64.ofInt 0)).IsWrittenAs (.ofInt 0) :=
  isWrittenAs_ofInt isSmall_zero.inInt64

/-- The fields of a date are written as they are. -/
theorem isWrittenAs_dateFields (d : Date) :
    List.Forall₂ IsWrittenAs (dateValues d) (Json.dateFields d) := by
  obtain ⟨hyear, hmonth, hday⟩ := isSmall_date d
  unfold Json.dateFields dateValues
  refine .cons (isWrittenAs_ofInt hyear.inInt64) (.cons (isWrittenAs_ofInt hmonth.inInt64) ?_)
  exact .cons (isWrittenAs_ofInt hday.inInt64) (.cons isWrittenAs_zero (.cons isWrittenAs_zero
    (.cons isWrittenAs_zero (.cons isWrittenAs_null .nil))))

/-- Fields that begin with those of a date override the whole date, but for a year zero. -/
theorem dateAdjustment_dateValues {d : Date} {fields : Fields}
    (hfields : ∀ key ∈ Operator.dateFields,
      fields.value key = Fields.value (Operator.dateFields.zip (dateValues d)) key) :
    fields.dateAdjustment = DateAdjustment.replacing d := by
  obtain ⟨hyear, hmonth, hday⟩ := isSmall_date d
  obtain ⟨_, _, hmonth', _, hday', _⟩ := d.valid
  simp only [Operator.dateFields, List.mem_cons, forall_eq_or_imp] at hfields
  obtain ⟨hy, hM, hd, hdy, hdM, hdd, _⟩ := hfields
  -- zero counts as no override, and neither the month nor the day is zero
  unfold Fields.dateAdjustment DateAdjustment.replacing
  rw [Fields.override?_eq hy hyear, Fields.override?_eq hM hmonth, Fields.override?_eq hd hday,
    Fields.addition_eq hdy isSmall_zero, Fields.addition_eq hdM isSmall_zero,
    Fields.addition_eq hdd isSmall_zero, Option.filter_some (a := (d.month : Int)),
    if_pos (by simpa using Nat.ne_of_gt hmonth'), Option.filter_some (a := (d.day : Int)),
    if_pos (by simpa using Nat.ne_of_gt hday')]

/-- A date comes back as it is understood on the date of the clock. -/
theorem carries_date_resolve (scope : Scope) (d : Date) :
    Carries (.evaluating scope) (date d) (date (d.resolve scope.clock.today)) := by
  have hadjustment : Fields.dateAdjustment (Operator.date.fields.zip (dateValues d))
      = DateAdjustment.replacing d := dateAdjustment_dateValues fun _ _ => rfl
  have hrevive := reviveItems_of_isWrittenAs (.evaluating scope) (isWrittenAs_dateFields d)
  refine ⟨.tagged .date (Json.dateFields d), by rw [toJson], ?_⟩
  rw [revive_tagged hrevive, Revival.finish, Scope.apply_date, hadjustment,
    DateAdjustment.adjust?_replacing]
  rfl

/-- A date comes back from the fields of its record, unless its year is zero. -/
theorem carries_date (scope : Scope) {d : Date} (h : d.year ≠ 0) :
    Carries (.evaluating scope) (date d) (date d) := by
  have hcarries := carries_date_resolve scope d
  rwa [Date.resolve_of_ne h] at hcarries

/-! ## Date-times -/

/-- The revived further fields of the record of a date-time. -/
def timeValues (t : TimeOfDay) : List Value :=
  [integer (Int64.ofInt t.hour), integer (Int64.ofInt t.minute), integer (Int64.ofInt t.second),
    integer (Int64.ofInt t.micros), integer (Int64.ofInt 0), integer (Int64.ofInt 0),
    integer (Int64.ofInt 0), integer (Int64.ofInt 0)]

/-- The fields of a time of day are small. -/
theorem isSmall_time (t : TimeOfDay) :
    IsSmall t.hour ∧ IsSmall t.minute ∧ IsSmall t.second ∧ IsSmall t.micros := by
  obtain ⟨hsecond, hnanos⟩ := t.valid
  unfold secondsPerDay at hsecond
  unfold nanosPerSecond at hnanos
  unfold TimeOfDay.hour TimeOfDay.minute TimeOfDay.second TimeOfDay.micros IsSmall
  omega

/-- They are written as they are. -/
theorem isWrittenAs_timeFields (t : TimeOfDay) :
    List.Forall₂ IsWrittenAs (timeValues t) (Json.timeFields t) := by
  obtain ⟨hhour, hminute, hsecond, hmicros⟩ := isSmall_time t
  unfold Json.timeFields timeValues
  refine .cons (isWrittenAs_ofInt hhour.inInt64) (.cons (isWrittenAs_ofInt hminute.inInt64) ?_)
  refine .cons (isWrittenAs_ofInt hsecond.inInt64) (.cons (isWrittenAs_ofInt hmicros.inInt64) ?_)
  exact .cons isWrittenAs_zero (.cons isWrittenAs_zero (.cons isWrittenAs_zero
    (.cons isWrittenAs_zero .nil)))

/-- The fields of a date-time are those of its date and of its time of day. -/
theorem isWrittenAs_dateTimeFields (t : DateTime) :
    List.Forall₂ IsWrittenAs (dateValues t.date ++ timeValues t.time)
      (Json.dateFields t.date ++ Json.timeFields t.time) :=
  List.rel_append (isWrittenAs_dateFields t.date) (isWrittenAs_timeFields t.time)

/-- The revived fields of the record of a date-time, by their keys. -/
def dateTimeFields (t : DateTime) : Fields :=
  Operator.dateTime.fields.zip (dateValues t.date ++ timeValues t.time)

/-- They begin with the fields of the date. -/
theorem value_dateTimeFields (t : DateTime) : ∀ key ∈ Operator.dateFields,
    (dateTimeFields t).value key = Fields.value (Operator.dateFields.zip (dateValues t.date)) key := by
  simp only [Operator.dateFields, List.mem_cons, List.not_mem_nil, or_false]
  rintro key (rfl | rfl | rfl | rfl | rfl | rfl | rfl) <;> rfl

/-- The record of a date-time replaces every field of the time. -/
theorem timeAdjustment_dateTimeFields (t : DateTime) :
    (dateTimeFields t).timeAdjustment = TimeAdjustment.replacing t.time := by
  obtain ⟨hhour, hminute, hsecond, hmicros⟩ := isSmall_time t.time
  have hh : (dateTimeFields t).value "h" = integer (Int64.ofInt t.time.hour) := rfl
  have hm : (dateTimeFields t).value "m" = integer (Int64.ofInt t.time.minute) := rfl
  have hs : (dateTimeFields t).value "s" = integer (Int64.ofInt t.time.second) := rfl
  have hms : (dateTimeFields t).value "ms" = integer (Int64.ofInt t.time.micros) := rfl
  have hdh : (dateTimeFields t).value "dh" = integer (Int64.ofInt 0) := rfl
  have hdm : (dateTimeFields t).value "dm" = integer (Int64.ofInt 0) := rfl
  have hds : (dateTimeFields t).value "ds" = integer (Int64.ofInt 0) := rfl
  have hdms : (dateTimeFields t).value "dms" = integer (Int64.ofInt 0) := rfl
  unfold Fields.timeAdjustment TimeAdjustment.replacing
  rw [Fields.whole?_eq hh hhour, Fields.whole?_eq hm hminute, Fields.whole?_eq hs hsecond,
    Fields.whole?_eq hms hmicros, Fields.addition_eq hdh isSmall_zero,
    Fields.addition_eq hdm isSmall_zero, Fields.addition_eq hds isSmall_zero,
    Fields.addition_eq hdms isSmall_zero]

/-- A date-time of whole microseconds comes back with its date as it is understood on the date of the
clock. -/
theorem carries_dateTime_resolve (scope : Scope) {t : DateTime} (hwhole : t.time.IsWholeMicro) :
    Carries (.evaluating scope) (dateTime t)
      (dateTime ⟨t.date.resolve scope.clock.now.date, t.time⟩) := by
  have hrevive := reviveItems_of_isWrittenAs (.evaluating scope) (isWrittenAs_dateTimeFields t)
  refine ⟨.tagged .dateTime (Json.dateFields t.date ++ Json.timeFields t.time), by rw [toJson], ?_⟩
  rw [revive_tagged hrevive, Revival.finish, ← dateTimeFields, Scope.apply_dateTime,
    dateAdjustment_dateValues (value_dateTimeFields t), timeAdjustment_dateTimeFields,
    TimeAdjustment.adjust?_replacing hwhole]
  rfl

/-- A date-time comes back if its year is not zero and it has whole microseconds. -/
theorem carries_dateTime (scope : Scope) {t : DateTime} (h : t.date.year ≠ 0)
    (hwhole : t.time.IsWholeMicro) :
    Carries (.evaluating scope) (dateTime t) (dateTime t) := by
  have hcarries := carries_dateTime_resolve scope hwhole
  rwa [Date.resolve_of_ne h] at hcarries

/-! ## Durations -/

/-- The result of a sum of components: null when it is out of range. -/
def ofDuration? : Option Duration → Value
  | some d => duration d
  | none => null

/-- The components of a duration are small. -/
theorem isSmall_duration (d : Duration) : IsSmall d.components.days ∧
    IsSmall d.components.seconds ∧ IsSmall d.components.micros := by
  obtain ⟨hlow, hhigh⟩ := d.inRange
  have hmicros : (d.nanos.tdiv 1000).natAbs ≤ d.nanos.natAbs := by
    rw [Int.natAbs_tdiv]
    exact Nat.div_le_self _ _
  unfold Duration.longest at hlow hhigh
  unfold Duration.components Duration.micros microsPerDay secondsPerDay IsSmall
  dsimp only
  omega

/-- The revived fields of the record of a duration. -/
def durationValues (d : Duration) : List Value :=
  [integer (Int64.ofInt d.components.days), integer (Int64.ofInt d.components.seconds),
    integer (Int64.ofInt d.components.micros)]

/-- They are written as they are. -/
theorem isWrittenAs_durationFields (d : Duration) :
    List.Forall₂ IsWrittenAs (durationValues d) (Json.durationFields d) := by
  obtain ⟨hdays, hseconds, hmicros⟩ := isSmall_duration d
  unfold Json.durationFields durationValues
  exact .cons (isWrittenAs_ofInt hdays.inInt64) (.cons (isWrittenAs_ofInt hseconds.inInt64)
    (.cons (isWrittenAs_ofInt hmicros.inInt64) .nil))

/-- A duration comes back as the sum of its components. -/
theorem carries_duration_components (scope : Scope) (d : Duration) :
    Carries (.evaluating scope) (duration d) (ofDuration? d.recombined?) := by
  obtain ⟨hdays, hseconds, hmicros⟩ := isSmall_duration d
  have hrevive := reviveItems_of_isWrittenAs (.evaluating scope) (isWrittenAs_durationFields d)
  refine ⟨.tagged .timeDelta (Json.durationFields d), by rw [toJson], ?_⟩
  rw [revive_tagged hrevive, Revival.finish, Scope.apply_timeDelta, Fields.component_eq rfl hdays,
    Fields.component_eq rfl hseconds, Fields.component_eq rfl hmicros, ← Duration.recombined?]
  cases d.recombined? <;> rfl

/-- A duration of whole microseconds comes back when its components are recombined without rounding. -/
theorem carries_duration (scope : Scope) {d : Duration} (hwhole : d.IsWholeMicro)
    (h : d.IsRecombined) :
    Carries (.evaluating scope) (duration d) (duration d) := by
  have hcarries := carries_duration_components scope d
  rwa [Duration.recombined?_eq hwhole h] at hcarries

end Value

end Latent

import Latent.Proofs.Binary64.Words
import Latent.Proofs.Calendar.Limits
import Latent.Proofs.Evaluate.Finished

/-!
# Calendar nodes of whole numbers

The fields of a date or date-time node are whole numbers of 64 bits, but an evaluation looks at them in binary64:
the node gives what an adjustment by the *nearest words* of its numbers gives.  So a number past `2^53` may count
as another one.  Mostly this is not seen, for so large a number leads to no date in either case; it is seen in
microseconds, and in a month that the year makes up for.
-/

namespace Latent

/-! ## Numbers of a node -/

/-- The numbers of a date: overrides of year, month and day, and years, months and days to add.  Each may be
missing. -/
structure DateNumbers where
  year : Option Int64
  month : Option Int64
  day : Option Int64
  addYears : Option Int64
  addMonths : Option Int64
  addDays : Option Int64

/-- The numbers of a time of day, likewise. -/
structure TimeNumbers where
  hour : Option Int64
  minute : Option Int64
  second : Option Int64
  micros : Option Int64
  addHours : Option Int64
  addMinutes : Option Int64
  addSeconds : Option Int64
  addMicros : Option Int64

/-- A whole number, or null when it is missing. -/
def Value.ofInteger? : Option Int64 → Value
  | some i => integer i
  | none => null

/-- A start of a node: none, a date or a date-time. -/
inductive Value.IsStart : Value → Prop where
  | null : IsStart null
  | date (d : Date) : IsStart (date d)
  | dateTime (t : DateTime) : IsStart (dateTime t)

/-- A date that was found, or null. -/
def Value.ofDate? : Option Date → Value
  | some d => date d
  | none => null

/-- A date-time that was found, or null. -/
def Value.ofDateTime? : Option DateTime → Value
  | some t => dateTime t
  | none => null

namespace DateNumbers

/-- The operands of a date node, and the first of a date-time node. -/
def operands (n : DateNumbers) (start : Value) : List Value :=
  [.ofInteger? n.year, .ofInteger? n.month, .ofInteger? n.day, .ofInteger? n.addYears,
    .ofInteger? n.addMonths, .ofInteger? n.addDays, start]

/-- The adjustment by these numbers: zero is no override, and nothing is added for a number that is missing. -/
def adjustment (n : DateNumbers) : DateAdjustment where
  year := (n.year.map Int64.toInt).filter (· ≠ 0)
  month := (n.month.map Int64.toInt).filter (· ≠ 0)
  day := (n.day.map Int64.toInt).filter (· ≠ 0)
  addYears := (n.addYears.map Int64.toInt).getD 0
  addMonths := (n.addMonths.map Int64.toInt).getD 0
  addDays := (n.addDays.map Int64.toInt).getD 0

/-- The numbers as binary64 has them. -/
def nearest (n : DateNumbers) : DateNumbers where
  year := n.year.map nearestWord
  month := n.month.map nearestWord
  day := n.day.map nearestWord
  addYears := n.addYears.map nearestWord
  addMonths := n.addMonths.map nearestWord
  addDays := n.addDays.map nearestWord

/-- The year and the month make up the same month in binary64: the month is not large, or both are kept. -/
def KeepsMonth (n : DateNumbers) : Prop :=
  (∀ month ∈ n.month, month.toInt.natAbs ≤ 2 ^ 53) ∨
    n.year.map nearestWord = n.year ∧ n.month.map nearestWord = n.month

end DateNumbers

namespace TimeNumbers

/-- The further operands of a date-time node. -/
def operands (n : TimeNumbers) : List Value :=
  [.ofInteger? n.hour, .ofInteger? n.minute, .ofInteger? n.second, .ofInteger? n.micros,
    .ofInteger? n.addHours, .ofInteger? n.addMinutes, .ofInteger? n.addSeconds, .ofInteger? n.addMicros]

/-- The adjustment by these numbers: here zero is an override. -/
def adjustment (n : TimeNumbers) : TimeAdjustment where
  hour := n.hour.map Int64.toInt
  minute := n.minute.map Int64.toInt
  second := n.second.map Int64.toInt
  micros := n.micros.map Int64.toInt
  addHours := (n.addHours.map Int64.toInt).getD 0
  addMinutes := (n.addMinutes.map Int64.toInt).getD 0
  addSeconds := (n.addSeconds.map Int64.toInt).getD 0
  addMicros := (n.addMicros.map Int64.toInt).getD 0

/-- The numbers as binary64 has them. -/
def nearest (n : TimeNumbers) : TimeNumbers where
  hour := n.hour.map nearestWord
  minute := n.minute.map nearestWord
  second := n.second.map nearestWord
  micros := n.micros.map nearestWord
  addHours := n.addHours.map nearestWord
  addMinutes := n.addMinutes.map nearestWord
  addSeconds := n.addSeconds.map nearestWord
  addMicros := n.addMicros.map nearestWord

/-- Binary64 keeps the microseconds. -/
def KeepsMicros (n : TimeNumbers) : Prop :=
  n.micros.map nearestWord = n.micros ∧ n.addMicros.map nearestWord = n.addMicros

end TimeNumbers

/-! ## Fields -/

/-- A field is looked at as a binary64 number, and so as the nearest one. -/
theorem Fields.whole?_ofInteger? {fields : Fields} {key : String} {i : Option Int64}
    (h : fields.value key = .ofInteger? i) : fields.whole? key = (i.map nearestWord).map Int64.toInt := by
  rw [whole?, h]
  cases i with
  | none => rfl
  | some i =>
      obtain ⟨n, hn⟩ := exists_truncate?_ofInt i
      rw [Value.ofInteger?, Value.toBinary64?, Option.bind_some, hn]
      simp only [Option.map_some, nearestWord, hn, Option.getD_some]

namespace DateNumbers

variable (n : DateNumbers) (start : Value)

/-- Fields that begin with numbers of a date adjust by the nearest words. -/
theorem dateAdjustment_eq {fields : Fields} (hfields : ∀ key ∈ Operator.dateFields,
      fields.value key = Fields.value (Operator.dateFields.zip (n.operands start)) key) :
    fields.dateAdjustment = n.nearest.adjustment := by
  simp only [Operator.dateFields, List.mem_cons, forall_eq_or_imp] at hfields
  obtain ⟨hy, hM, hd, hdy, hdM, hdd, _⟩ := hfields
  unfold Fields.dateAdjustment Fields.override? Fields.addition
  rw [Fields.whole?_ofInteger? hy, Fields.whole?_ofInteger? hM, Fields.whole?_ofInteger? hd,
    Fields.whole?_ofInteger? hdy, Fields.whole?_ofInteger? hdM, Fields.whole?_ofInteger? hdd]
  rfl

end DateNumbers

/-- Its further fields adjust by the nearest words likewise. -/
theorem TimeNumbers.timeAdjustment_eq (n : DateNumbers) (t : TimeNumbers) (start : Value) :
    Fields.timeAdjustment (Value.record .dateTime (n.operands start ++ t.operands)) = t.nearest.adjustment := by
  unfold Fields.timeAdjustment Fields.addition
  rw [Fields.whole?_ofInteger? (i := t.hour) rfl, Fields.whole?_ofInteger? (i := t.minute) rfl,
    Fields.whole?_ofInteger? (i := t.second) rfl, Fields.whole?_ofInteger? (i := t.micros) rfl,
    Fields.whole?_ofInteger? (i := t.addHours) rfl, Fields.whole?_ofInteger? (i := t.addMinutes) rfl,
    Fields.whole?_ofInteger? (i := t.addSeconds) rfl, Fields.whole?_ofInteger? (i := t.addMicros) rfl]
  rfl

namespace Value

variable (scope : Scope) {start : Value}

theorem evaluate_ofInteger? (i : Option Int64) : (ofInteger? i).evaluate scope = ofInteger? i := by
  cases i <;> rfl

theorem IsStart.evaluate_eq (h : start.IsStart) : start.evaluate scope = start := by
  cases h <;> rfl

/-- There is nothing to evaluate in the operands. -/
theorem evaluateItems_operands (n : DateNumbers) (h : start.IsStart) :
    evaluateItems scope (n.operands start) = n.operands start := by
  simp only [DateNumbers.operands, evaluateItems, evaluate_ofInteger?, h.evaluate_eq]

theorem evaluateItems_operands_append (n : DateNumbers) (t : TimeNumbers) (h : start.IsStart) :
    evaluateItems scope (n.operands start ++ t.operands) = n.operands start ++ t.operands := by
  simp only [DateNumbers.operands, TimeNumbers.operands, List.cons_append, List.nil_append, evaluateItems,
    evaluate_ofInteger?, h.evaluate_eq]

/-- A date node adjusts its start by the nearest words of its numbers. -/
theorem evaluate_date (n : DateNumbers) (h : start.IsStart) :
    (node .date (n.operands start)).evaluate scope
      = ofDate? (n.nearest.adjustment.adjust? (scope.startDate start)) := by
  have hstart : Fields.value (record .date (n.operands start)) "start" = start := rfl
  have hadjust : Fields.dateAdjustment (record .date (n.operands start)) = n.nearest.adjustment :=
    n.dateAdjustment_eq start fun _ _ => rfl
  rw [evaluate, evaluateItems_operands scope n h, Scope.apply_date, hstart, hadjust]
  rfl

/-- So does a date-time node. -/
theorem evaluate_dateTime (n : DateNumbers) (t : TimeNumbers) (h : start.IsStart) :
    (node .dateTime (n.operands start ++ t.operands)).evaluate scope
      = ofDateTime? (t.nearest.adjustment.adjust? n.nearest.adjustment (scope.startTime start)) := by
  have hstart : Fields.value (record .dateTime (n.operands start ++ t.operands)) "start" = start := rfl
  have hfields : ∀ key ∈ Operator.dateFields,
      Fields.value (record .dateTime (n.operands start ++ t.operands)) key
        = Fields.value (Operator.dateFields.zip (n.operands start)) key := by
    simp only [Operator.dateFields, List.mem_cons, List.not_mem_nil, or_false]
    rintro key (rfl | rfl | rfl | rfl | rfl | rfl | rfl) <;> rfl
  rw [evaluate, evaluateItems_operands_append scope n t h, Scope.apply_dateTime, hstart,
    n.dateAdjustment_eq start hfields, TimeNumbers.timeAdjustment_eq]
  rfl

end Value

/-! ## Nearest words as steps -/

/-- A number and its nearest word are one step: they are the same, or too large. -/
theorem sameStep_nearestWord (i : Int64) : SameStep (nearestWord i).toInt i.toInt := by
  rcases Nat.lt_or_ge (2 ^ 53) i.toInt.natAbs with hlarge | hsmall
  · exact .inr ⟨le_natAbs_nearestWord hlarge, by omega⟩
  · rw [nearestWord_of_le hsmall]
    exact .refl _

theorem rel_nearestWord (i : Option Int64) :
    Option.Rel SameStep ((i.map nearestWord).map Int64.toInt) (i.map Int64.toInt) := by
  cases i with
  | none => exact .none
  | some i => exact .some (sameStep_nearestWord i)

theorem sameStep_getD (i : Option Int64) :
    SameStep (((i.map nearestWord).map Int64.toInt).getD 0) ((i.map Int64.toInt).getD 0) :=
  rel_getD (rel_nearestWord i) (.refl 0)

namespace DateNumbers

variable {n : DateNumbers}

/-- A month that is not large is kept, and with it the year counts only when it is not large either. -/
theorem firstOfMonth?_nearest (h : n.KeepsMonth) (base : Date) :
    n.nearest.adjustment.firstOfMonth? base = n.adjustment.firstOfMonth? base := by
  rcases h with hsmall | ⟨hyear, hmonth⟩
  · have hmonth : n.month.map nearestWord = n.month := by
      cases hfield : n.month with
      | none => rfl
      | some month => exact congrArg some (nearestWord_of_le (hsmall month hfield))
    have hsize : ∀ month ∈ n.nearest.adjustment.month, month.natAbs ≤ 2 ^ 53 := by
      intro month hmem
      unfold nearest adjustment at hmem
      dsimp only at hmem
      rw [hmonth] at hmem
      obtain ⟨i, hi, rfl⟩ := Option.map_eq_some_iff.1 (Option.mem_filter_iff.1 hmem).1
      exact hsmall i hi
    have hyear : Option.Rel SameStep n.nearest.adjustment.year n.adjustment.year :=
      SameStep.filter_ne_zero (rel_nearestWord n.year)
    refine DateAdjustment.firstOfMonth?_congr ?_ hsize hyear base
    unfold nearest adjustment
    dsimp only
    rw [hmonth]
  · unfold DateAdjustment.firstOfMonth? nearest adjustment
    dsimp only
    rw [hyear, hmonth]

/-- Rounded numbers make the same steps, if rounding keeps the month. -/
theorem sameSteps_nearest (h : n.KeepsMonth) : n.nearest.adjustment.SameSteps n.adjustment where
  first := firstOfMonth?_nearest h
  day := SameStep.filter_ne_zero (rel_nearestWord n.day)
  addYears := sameStep_getD n.addYears
  addMonths := sameStep_getD n.addMonths
  addDays := sameStep_getD n.addDays

end DateNumbers

/-- Rounded numbers make the same steps, if rounding keeps the microseconds. -/
theorem TimeNumbers.sameSteps_nearest {n : TimeNumbers} (h : n.KeepsMicros) :
    n.nearest.adjustment.SameSteps n.adjustment where
  hour := rel_nearestWord n.hour
  minute := rel_nearestWord n.minute
  second := rel_nearestWord n.second
  micros := congrArg (Option.map Int64.toInt) h.1
  addHours := sameStep_getD n.addHours
  addMinutes := sameStep_getD n.addMinutes
  addSeconds := sameStep_getD n.addSeconds
  addMicros := congrArg (fun i => (Option.map Int64.toInt i).getD 0) h.2

/-! ## Calendar nodes -/

namespace Value

/-- **A calendar node adjusts its start by the nearest words of its numbers.**  That is the adjustment by the
numbers themselves when the month that they make up is kept, and for a date-time the microseconds too. -/
theorem evaluate_calendar (scope : Scope) (n : DateNumbers) (t : TimeNumbers) {start : Value} (h : start.IsStart) :
    (node .date (n.operands start)).evaluate scope
        = ofDate? (n.nearest.adjustment.adjust? (scope.startDate start)) ∧
      (node .dateTime (n.operands start ++ t.operands)).evaluate scope
        = ofDateTime? (t.nearest.adjustment.adjust? n.nearest.adjustment (scope.startTime start)) ∧
      (n.KeepsMonth →
        (node .date (n.operands start)).evaluate scope
            = ofDate? (n.adjustment.adjust? (scope.startDate start)) ∧
          (t.KeepsMicros →
            (node .dateTime (n.operands start ++ t.operands)).evaluate scope
              = ofDateTime? (t.adjustment.adjust? n.adjustment (scope.startTime start)))) := by
  refine ⟨evaluate_date scope n h, evaluate_dateTime scope n t h, fun hmonth => ⟨?_, fun hmicros => ?_⟩⟩
  · rw [evaluate_date scope n h, (DateNumbers.sameSteps_nearest hmonth).adjust?]
  · rw [evaluate_dateTime scope n t h,
      (TimeNumbers.sameSteps_nearest hmicros).adjust? (DateNumbers.sameSteps_nearest hmonth)]

/-- A month after December, a day that is zero, an hour after the day, and more years than binary64 keeps
apart: they are too many in either case. -/
theorem evaluate_calendar_rollOver :
    let n : DateNumbers := ⟨none, some 14, some 0, none, none, some (-45)⟩
    let far : DateNumbers := { n with addYears := some 9007199254740993 }
    let t : TimeNumbers := ⟨some 25, none, none, none, none, none, none, some 5000000⟩
    let start : Value := date ⟨2024, 1, 31, by decide⟩
    let scope : Scope := default
    start.IsStart ∧ n.KeepsMonth ∧ far.KeepsMonth ∧ t.KeepsMicros ∧
      (node .date (n.operands start)).evaluate scope = date ⟨2025, 1, 14, by decide⟩ ∧
      (node .dateTime (n.operands start ++ t.operands)).evaluate scope
        = dateTime ⟨⟨2025, 1, 15, by decide⟩, ⟨3605, 0, by decide⟩⟩ ∧
      (node .date (far.operands start)).evaluate scope = null := by
  intro n far t start scope
  have hstart : start.IsStart := .date _
  have hmonth : n.KeepsMonth := .inl fun month h => by cases h; decide
  have hfar : far.KeepsMonth := .inl fun month h => by cases h; decide
  have hmicros : t.KeepsMicros := ⟨rfl, congrArg some (nearestWord_of_le (by decide))⟩
  obtain ⟨-, -, hexact⟩ := evaluate_calendar scope n t hstart
  obtain ⟨-, -, hexactFar⟩ := evaluate_calendar scope far t hstart
  obtain ⟨hdate, htime⟩ := hexact hmonth
  -- what the numbers themselves lead to is computed; the theorem says that the node does the same
  have hmoved : n.adjustment.adjust? (scope.startDate start) = some ⟨2025, 1, 14, by decide⟩ := by decide +kernel
  have hrolled : t.adjustment.adjust? n.adjustment (scope.startTime start)
      = some ⟨⟨2025, 1, 15, by decide⟩, ⟨3605, 0, by decide⟩⟩ := by decide +kernel
  have hleft : far.adjustment.adjust? (scope.startDate start) = none := by decide +kernel
  refine ⟨hstart, hmonth, hfar, hmicros, ?_, ?_, ?_⟩
  · rw [hdate, hmoved, ofDate?]
  · rw [htime hmicros, hrolled, ofDateTime?]
  · rw [(hexactFar hfar).1, hleft, ofDate?]

/-- Of `2^53 + 1` microseconds one is lost.  A month that is overridden to be long before the year that is
overridden with it leads to a date, and rounded to none. -/
theorem evaluate_calendar_lossy :
    let start : Value := date ⟨1970, 1, 1, by decide⟩
    let t : TimeNumbers := ⟨none, none, none, none, none, none, none, some 9007199254740993⟩
    let n : DateNumbers := ⟨none, none, none, none, none, none⟩
    let far : DateNumbers := ⟨some 768614336404564650, some (-9223372036854775800), some 1, none, none, none⟩
    let scope : Scope := default
    start.IsStart ∧
      (node .dateTime (n.operands start ++ t.operands)).evaluate scope
        = dateTime ⟨⟨2255, 6, 5, by decide⟩, ⟨85654, 740992000, by decide⟩⟩ ∧
      ofDateTime? (t.adjustment.adjust? n.adjustment (scope.startTime start))
        = dateTime ⟨⟨2255, 6, 5, by decide⟩, ⟨85654, 740993000, by decide⟩⟩ ∧
      (node .date (far.operands start)).evaluate scope = null ∧
      ofDate? (far.adjustment.adjust? (scope.startDate start)) = date ⟨-1, 12, 1, by decide⟩ ∧
      ¬ ∀ (n : DateNumbers) (t : TimeNumbers), (node .dateTime (n.operands start ++ t.operands)).evaluate scope
        = ofDateTime? (t.adjustment.adjust? n.adjustment (scope.startTime start)) := by
  intro start t n far scope
  have hstart : start.IsStart := .date _
  have hrounded : t.nearest.adjustment.adjust? n.nearest.adjustment (scope.startTime start)
      = some ⟨⟨2255, 6, 5, by decide⟩, ⟨85654, 740992000, by decide⟩⟩ := by decide +kernel
  have hexact : t.adjustment.adjust? n.adjustment (scope.startTime start)
      = some ⟨⟨2255, 6, 5, by decide⟩, ⟨85654, 740993000, by decide⟩⟩ := by decide +kernel
  have hnone : far.nearest.adjustment.adjust? (scope.startDate start) = none := by decide +kernel
  have hfound : far.adjustment.adjust? (scope.startDate start) = some ⟨-1, 12, 1, by decide⟩ := by decide +kernel
  have hnode : (node .dateTime (n.operands start ++ t.operands)).evaluate scope
      = dateTime ⟨⟨2255, 6, 5, by decide⟩, ⟨85654, 740992000, by decide⟩⟩ := by
    rw [evaluate_dateTime scope n t hstart, hrounded, ofDateTime?]
  refine ⟨hstart, hnode, ?_, ?_, ?_, fun hall => ?_⟩
  · rw [hexact, ofDateTime?]
  · rw [evaluate_date scope far hstart, hnone, ofDate?]
  · rw [hfound, ofDate?]
  · have heq := hall n t
    rw [hnode, hexact, ofDateTime?, dateTime.injEq] at heq
    exact absurd heq (by decide)

end Value

end Latent

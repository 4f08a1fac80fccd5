import Latent.Evaluate
import Latent.Proofs.Found

/-!
# Results of operators

The result of each operator by the views of its fields: truths, ordinals, lookups, lengths.  `SeesAlike` says
what an operator looks at, so that it has related results on two sets of fields whose views are equal and
whose values, where it hands them on, are related (`Scope.related_apply`).
-/

namespace Latent

namespace Value

/-- The entries of a map. -/
def entries? : Value → Option (Entries Value)
  | map entries => some entries
  | _ => none

/-- The value that a map binds to a text. -/
def bound? (target key : Value) : Option Value :=
  key.toText?.bind fun key => target.entries?.bind (Entries.find? key)

/-- The truths of a list of statements. -/
def truths? : Value → Option (List Bool)
  | list statements => some (statements.map isTruthy)
  | _ => none

/-- The first value comes after the second in the order of ordinals or, where equality is included, not
before it.  Values without an ordinal are not in the order. -/
def exceeds (inclusive : Bool) (a b : Value) : Bool :=
  match a.ordinal?, b.ordinal? with
  | some x, some y => if inclusive then y.le x else y.lt x
  | _, _ => false

/-- A leaf of a form that operators make. -/
def isComputed : Value → Bool
  | null | boolean _ | integer _ | date _ | dateTime _ | duration _ => true
  | _ => false

end Value

namespace Scope

variable (scope : Scope) (fields : Fields)

/-! ## One operator at a time -/

/-- A variable has the value that its path reaches, or its default. -/
theorem apply_eval : scope.apply .eval fields
    = ((fields.value "v").toText?.bind fun path => Path.resolve? path scope.bindings).getD
        (fields.value "d") := by
  unfold apply
  dsimp only
  cases fields.value "v" <;> rfl

/-- All statements are true. -/
theorem apply_and : scope.apply .and fields
    = .boolean (((fields.value "s").truths?.map fun truths => truths.all id).getD false) := by
  unfold apply Fields.overStatements
  dsimp only
  cases fields.value "s" with
  | list statements =>
      have hall : (statements.map Value.isTruthy).all id = statements.all Value.isTruthy := List.all_map
      exact congrArg Value.boolean hall.symm
  | _ => rfl

/-- Some statement is true. -/
theorem apply_or : scope.apply .or fields
    = .boolean (((fields.value "s").truths?.map fun truths => truths.any id).getD false) := by
  unfold apply Fields.overStatements
  dsimp only
  cases fields.value "s" with
  | list statements =>
      have hany : (statements.map Value.isTruthy).any id = statements.any Value.isTruthy := List.any_map
      exact congrArg Value.boolean hany.symm
  | _ => rfl

/-- The left side exceeds the right one. -/
theorem apply_greater : scope.apply .greater fields
    = .boolean ((fields.value "s1").exceeds (fields.value "e").isTruthy (fields.value "s2")) := by
  unfold apply Fields.compare Fields.ordinals? Value.exceeds
  dsimp only
  cases (fields.value "s1").ordinal? <;> cases (fields.value "s2").ordinal? <;> rfl

/-- A value is less than another when the other exceeds it. -/
theorem apply_less : scope.apply .less fields
    = .boolean ((fields.value "s2").exceeds (fields.value "e").isTruthy (fields.value "s1")) := by
  unfold apply Fields.compare Fields.ordinals? Value.exceeds
  dsimp only
  cases (fields.value "s1").ordinal? <;> cases (fields.value "s2").ordinal? <;> rfl

/-- A choice is one of its branches. -/
theorem apply_choose : scope.apply .choose fields
    = if (fields.value "c").isTruthy then fields.value "t" else fields.value "e" := rfl

/-- A lookup has the value that the map binds, or its default. -/
theorem apply_get : scope.apply .get fields
    = ((fields.value "v").bound? (fields.value "k")).getD (fields.value "d") := by
  unfold apply
  dsimp only
  cases fields.value "v" <;> cases fields.value "k" <;> rfl

/-- A date is the start, adjusted. -/
theorem apply_date : scope.apply .date fields
    = (match fields.dateAdjustment.adjust? (scope.startDate (fields.value "start")) with
      | some d => .date d
      | none => .null) := rfl

/-- So is a date-time. -/
theorem apply_dateTime : scope.apply .dateTime fields
    = (match fields.timeAdjustment.adjust? fields.dateAdjustment
        (scope.startTime (fields.value "start")) with
      | some t => .dateTime t
      | none => .null) := rfl

/-- A duration is the sum of its components. -/
theorem apply_timeDelta : scope.apply .timeDelta fields
    = (match Duration.ofComponents? (fields.component "d") (fields.component "s")
        (fields.component "m") with
      | some d => .duration d
      | none => .null) := rfl

/-- A length is a whole number. -/
theorem apply_len : scope.apply .len fields
    = (match (fields.value "v").length? with
      | some n => .integer (Int64.ofNat n)
      | none => .null) := rfl

/-! ## What operators look at -/

/-- The operator finds the same in both sets of fields: what it looks at is equal, and the values that it
hands on are related.  The default of a variable is not looked at when the variable is bound. -/
def SeesAlike (related : Value → Value → Prop) (fields others : Fields) : Operator → Prop
  | .eval =>
    (fields.value "v").toText? = (others.value "v").toText? ∧
      (((others.value "v").toText?.bind fun path => Path.resolve? path scope.bindings) = none →
        related (fields.value "d") (others.value "d"))
  | .not | .bool => (fields.value "v").isTruthy = (others.value "v").isTruthy
  | .and | .or => (fields.value "s").truths? = (others.value "s").truths?
  | .equal =>
    (fields.value "s1").looselyEqual (fields.value "s2")
      = (others.value "s1").looselyEqual (others.value "s2")
  | .greater =>
    (fields.value "s1").exceeds (fields.value "e").isTruthy (fields.value "s2")
      = (others.value "s1").exceeds (others.value "e").isTruthy (others.value "s2")
  | .less =>
    (fields.value "s2").exceeds (fields.value "e").isTruthy (fields.value "s1")
      = (others.value "s2").exceeds (others.value "e").isTruthy (others.value "s1")
  | .choose =>
    (fields.value "c").isTruthy = (others.value "c").isTruthy ∧
      related (fields.value "t") (others.value "t") ∧ related (fields.value "e") (others.value "e")
  | .get =>
    Option.Rel related ((fields.value "v").bound? (fields.value "k"))
        ((others.value "v").bound? (others.value "k")) ∧
      related (fields.value "d") (others.value "d")
  | .member =>
    (fields.value "v").holds (fields.value "k") = (others.value "v").holds (others.value "k")
  | .date =>
    fields.dateAdjustment = others.dateAdjustment ∧
      scope.startDate (fields.value "start") = scope.startDate (others.value "start")
  | .dateTime =>
    fields.dateAdjustment = others.dateAdjustment ∧ fields.timeAdjustment = others.timeAdjustment ∧
      scope.startTime (fields.value "start") = scope.startTime (others.value "start")
  | .timeDelta =>
    Duration.ofComponents? (fields.component "d") (fields.component "s") (fields.component "m")
      = Duration.ofComponents? (others.component "d") (others.component "s") (others.component "m")
  | .len => (fields.value "v").length? = (others.value "v").length?

variable {fields} {others : Fields} {related : Value → Value → Prop}

/-- **An operator has related results where it sees alike**, if the leaves that operators make and the values
of variables are related to themselves. -/
theorem related_apply {op : Operator} (hmade : ∀ v : Value, v.isComputed → related v v)
    (hbound : ∀ path v, Path.resolve? path scope.bindings = some v → related v v)
    (h : scope.SeesAlike related fields others op) :
    related (scope.apply op fields) (scope.apply op others) := by
  have hsame {v w : Value} (heq : v = w) (hw : w.isComputed) : related v w := heq ▸ hmade w hw
  -- three operators hand on values; the others make leaves of what they see
  cases op with
  | eval =>
      obtain ⟨hpath, hdefault⟩ := h
      rw [apply_eval, apply_eval, hpath]
      cases hfound : (others.value "v").toText?.bind fun path => Path.resolve? path scope.bindings with
      | none => exact hdefault hfound
      | some v =>
          obtain ⟨path, _, hpath⟩ := Option.bind_eq_some_iff.1 hfound
          exact hbound path v hpath
  | choose =>
      obtain ⟨hcondition, hyes, hno⟩ := h
      rw [apply_choose, apply_choose, hcondition]
      split
      · exact hyes
      · exact hno
  | get =>
      rw [apply_get, apply_get]
      exact rel_getD h.1 h.2
  | not => exact hsame (congrArg (fun b => Value.boolean !b) h) rfl
  | bool | equal | member => exact hsame (congrArg Value.boolean h) rfl
  | and =>
      have htruths : (fields.value "s").truths? = _ := h
      rw [apply_and, apply_and, htruths]
      exact hsame rfl rfl
  | or =>
      have htruths : (fields.value "s").truths? = _ := h
      rw [apply_or, apply_or, htruths]
      exact hsame rfl rfl
  | greater =>
      rw [apply_greater, apply_greater]
      exact hsame (congrArg Value.boolean h) rfl
  | less =>
      rw [apply_less, apply_less]
      exact hsame (congrArg Value.boolean h) rfl
  | date =>
      rw [apply_date, apply_date, h.1, h.2]
      exact hsame rfl (by split <;> rfl)
  | dateTime =>
      rw [apply_dateTime, apply_dateTime, h.1, h.2.1, h.2.2]
      exact hsame rfl (by split <;> rfl)
  | timeDelta =>
      rw [apply_timeDelta, apply_timeDelta, h]
      exact hsame rfl (by split <;> rfl)
  | len =>
      rw [apply_len, apply_len, h]
      exact hsame rfl (by split <;> rfl)

end Scope

end Latent

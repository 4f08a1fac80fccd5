import Latent.Proofs.Wire.CalendarRecords

/-!
# Evaluation before and after transport

A value can be evaluated where it is, or written, sent, and evaluated while it is revived.  Both ways
give the same result, to every part of it: the live evaluation brings numbers into the plain form that
the wire gives them, and the records of calendar values evaluate to those values.

`Value.crossesWire` lists what the wire has no record for, or a record of something else.
-/

namespace Latent

namespace Value

/-- The wire keeps the meaning of a value, its parts aside.  It has no form for a time of day, no part
of a microsecond and no leap second; a year zero is no override; durations are recombined in binary64;
and a map may read as a record. -/
def crossesWire : Value → Bool
  | time _ => false
  | map entries => (tag? entries).isNone
  | date d => d.year ≠ 0
  | dateTime t => t.date.year ≠ 0 && t.time.IsWholeMicro
  | duration d => d.IsWholeMicro && d.micros.natAbs ≤ 2 ^ 53
  | _ => true

/-- Every value whose parts cross the wire is carried to its evaluation. -/
theorem carries_evaluate (scope : Scope) (v : Value) (h : v.all crossesWire) :
    Carries (.evaluating scope) v (v.evaluate scope) := by
  induction v, h using all_induction with
  | leaf v h hleaf =>
      have hv : v.crossesWire = true := holds_of_all h
      -- of the leaves, only calendar values depend on what crosses the wire
      match v, hleaf with
      | null, _ => exact carries_null
      | boolean b, _ => exact carries_boolean b
      | integer i, _ => exact carries_integer i
      | float x, _ => exact carries_float x
      | decimal d, _ => exact carries_decimal d
      | string s, _ => exact carries_string s
      | date d, _ => exact carries_date scope (of_decide_eq_true hv)
      | dateTime t, _ =>
          obtain ⟨hyear, hwhole⟩ := Bool.and_eq_true_iff.1 hv
          exact carries_dateTime scope (of_decide_eq_true hyear) (of_decide_eq_true hwhole)
      | time t, _ => cases hv
      | duration d, _ =>
          obtain ⟨hwhole, hsize⟩ := Bool.and_eq_true_iff.1 hv
          exact carries_duration scope (of_decide_eq_true hwhole)
            (Duration.isRecombined_of_le (of_decide_eq_true hsize))
  | list items _ ih =>
      rw [evaluate_list]
      exact carries_list ih
  | map entries h ih =>
      rw [evaluate_map]
      exact carries_map (Option.isNone_iff_eq_none.1 (holds_of_all h)) ih
  | node op operands _ ih =>
      rw [evaluate_node]
      exact carries_node ih rfl

/-- **Transport does not change what a value evaluates to.** -/
theorem revive_toJson_eq_evaluate (scope : Scope) (v : Value) (h : v.all crossesWire) :
    ∃ tree, v.toJson = .ok tree ∧ revive (.evaluating scope) tree = .ok (v.evaluate scope) :=
  carries_evaluate scope v h

/-- A choice between a date-time and a duration by a comparison with a variable, in a list with numbers
in all their forms and a map that is tagged with no operator. -/
theorem revive_toJson_eq_evaluate_choice :
    let t : DateTime := ⟨⟨2020, 2, 29, by decide⟩, ⟨86399, 123456000, by decide⟩⟩
    let d : Duration := ⟨-1000, by decide⟩
    let scope : Scope := ⟨[("n", float 3)], .stoppedAt t⟩
    let greater := node .greater [node .eval [string "n", integer 0], float 2, boolean false]
    let v := list [node .choose [greater, dateTime t, duration d], decimal ⟨150, 2⟩, float .nan,
      map [(tagKey, string "Other"), ("day", date t.date)]]
    v.all crossesWire ∧ ∃ tree, v.toJson = .ok tree ∧
      revive (.evaluating scope) tree = .ok (v.evaluate scope) :=
  ⟨by decide, revive_toJson_eq_evaluate _ _ (by decide)⟩

end Value

end Latent

import Latent.Proofs.Evaluate.Agreement
import Latent.Proofs.Node.Construction

/-!
# Records and the nodes built from them

An operator can be applied to the evaluated fields of a record, or the record can be built to a node,
which is then evaluated.  Both give one result: construction wraps what is looked at for its truth alone,
and what it puts for a missing field is, in every slot but one, what the operator takes a missing field
for (`Slot.Agree`).  The one exception is the default of `Eval`.
-/

namespace Latent

/-! ## The operands of a node -/

namespace Node

variable {op : Operator}

/-- Each operand is found by its field, and is made of the value of that field. -/
theorem exists_operand {valueOf : Slot → Value} {slots : List Slot} {operands : List Value}
    (hnodup : (slots.map Slot.key).Nodup) (h : operandsOf op slots (slots.map valueOf) = .ok operands) :
    ∀ slot ∈ slots, ∃ operand,
      Entries.find? slot.key ((slots.map Slot.key).zip operands) = some operand ∧
        operandOf op slot.key (valueOf slot) slot.role = .ok operand := by
  induction slots generalizing operands with
  | nil => exact fun slot hslot => absurd hslot List.not_mem_nil
  | cons first slots ih =>
      obtain ⟨hnew, hkeys⟩ := List.nodup_cons.1 hnodup
      obtain ⟨operand, hoperand, h⟩ := exists_of_bind_eq_ok h
      obtain ⟨rest, hrest, h⟩ := exists_of_bind_eq_ok h
      cases h
      intro slot hslot
      rcases List.mem_cons.1 hslot with rfl | htail
      · exact ⟨operand, if_pos rfl, hoperand⟩
      · have hne : first.key ≠ slot.key := fun heq => hnew (heq ▸ List.mem_map_of_mem htail)
        obtain ⟨other, hfind, hother⟩ := ih hkeys hrest slot htail
        exact ⟨other, (if_neg hne).trans hfind, hother⟩

end Node

namespace Value

variable {scope : Scope}

/-- The truth of a value is not changed by its coercion. -/
theorem isTruthy_evaluate_coerceTruth (v : Value) :
    (v.coerceTruth.evaluate scope).isTruthy = (v.evaluate scope).isTruthy := by
  unfold coerceTruth
  split
  · rfl
  · rfl

/-- Nor are those of statements. -/
theorem map_isTruthy_coerceTruth (items : List Value) :
    ((items.map coerceTruth).map (evaluate scope)).map isTruthy
      = (items.map (evaluate scope)).map isTruthy := by
  simp only [List.map_map]
  exact List.map_congr_left fun item _ => isTruthy_evaluate_coerceTruth item

end Value

/-- A field of an evaluated node is its evaluated operand. -/
theorem Fields.value_record {scope : Scope} {op : Operator} {operands : List Value} {field : String}
    {operand : Value} (h : Entries.find? field (op.fields.zip operands) = some operand) :
    Fields.value (Value.record op (operands.map (Value.evaluate scope))) field
      = operand.evaluate scope := by
  have hrecord : Value.record op (operands.map (Value.evaluate scope))
      = (op.fields.zip operands).map fun entry => (entry.1, entry.2.evaluate scope) :=
    List.zip_map_right
  rw [Fields.value, hrecord, Entries.find?_map, h]
  rfl

/-! ## Slots -/

/-- An operator cannot tell the value of an operand, in the given slot, from what a field holds: they are
equal, or equally true where only truth is asked for, or the field is missing and the value stands for
it. -/
def Slot.Agree (slot : Slot) (v : Value) (found : Option Value) : Prop :=
  match slot.role with
  | .truth => v.isTruthy = (found.getD .null).isTruthy
  | .statements => Role.statements.Agree v (found.getD .null)
  | .free | .must _ => v = found.getD slot.missing

/-- What is put for a missing field has no parts to evaluate and is not true; statements are never
missing. -/
structure Slot.IsInert (slot : Slot) : Prop where
  evaluate (scope : Scope) : slot.missing.evaluate scope = slot.missing
  isTruthy : slot.missing.isTruthy = false
  statements : slot.role = .statements → slot.missing = .null

/-- Every slot of an operator is inert. -/
theorem Operator.isInert_slots (op : Operator) : ∀ slot ∈ op.slots, slot.IsInert := by
  have hnull (key : String) (role : Role) : Slot.IsInert ⟨key, role, .null⟩ :=
    ⟨fun _ => rfl, rfl, fun _ => rfl⟩
  have hzero (key : String) (r : Requirement) : Slot.IsInert ⟨key, .must r, .integer 0⟩ :=
    ⟨fun _ => rfl, rfl, nofun⟩
  have hempty : Slot.IsInert ⟨"d", .free, .string ""⟩ := ⟨fun _ => rfl, rfl, nofun⟩
  have hfalse : Slot.IsInert ⟨"e", .truth, .boolean false⟩ := ⟨fun _ => rfl, rfl, nofun⟩
  cases op <;> simp [slots, dateSlots, timeSlots, calendarSlot, hnull, hzero, hempty, hfalse]

/-- An operand agrees with the field that it was made of, also when that field was missing. -/
theorem Slot.agree_operandOf {scope : Scope} {slot : Slot} {op : Operator} {field : String}
    {found : Option Value} {operand : Value} (hslot : slot.IsInert)
    (h : Node.operandOf op field (found.getD slot.missing) slot.role = .ok operand) :
    slot.Agree (operand.evaluate scope) (found.map (Value.evaluate scope)) := by
  obtain ⟨key, role, missing⟩ := slot
  -- what is missing is inert: it evaluates to itself
  have hkept : (found.getD missing).evaluate scope
      = (found.map (Value.evaluate scope)).getD missing := by
    cases found with
    | some v => rfl
    | none => exact hslot.evaluate scope
  cases role with
  | free =>
      cases h
      exact hkept
  | must r =>
      obtain ⟨_, _, h⟩ := exists_of_bind_eq_ok h
      cases h
      exact hkept
  | truth =>
      cases h
      refine (Value.isTruthy_evaluate_coerceTruth _).trans ?_
      cases found with
      | some v => rfl
      | none => exact (congrArg Value.isTruthy hkept).trans hslot.isTruthy
  | statements =>
      obtain rfl : missing = .null := hslot.statements rfl
      cases found with
      | none => cases h
      | some v =>
          cases v with
          | list items =>
              obtain ⟨_, _, h⟩ := exists_of_bind_eq_ok h
              cases h
              refine ⟨(items.map Value.coerceTruth).map (Value.evaluate scope),
                items.map (Value.evaluate scope), ?_, ?_, Value.map_isTruthy_coerceTruth items⟩
              · rw [Value.evaluate_list]
              · rw [Option.map_some, Option.getD_some, Value.evaluate_list]
          | _ => cases h

/-! ## Operators -/

namespace Fields

variable {fields others : Fields} {key : String}

/-- An override that is missing is none. -/
theorem whole?_eq_of_agree (h : fields.value key = (others.find? key).getD .null) :
    fields.whole? key = others.whole? key := by
  rw [whole?, whole?, h, value]

/-- An addition that is missing adds nothing. -/
theorem addition_eq_of_agree (h : fields.value key = (others.find? key).getD (.integer 0)) :
    fields.addition key = others.addition key := by
  rw [addition, addition, whole?, whole?, h, value]
  cases others.find? key with
  | some v => rfl
  | none => decide +kernel

/-- A component that is missing is zero. -/
theorem component_eq_of_agree (h : fields.value key = (others.find? key).getD (.integer 0)) :
    fields.component key = others.component key := by
  rw [component, component, h, value]
  cases others.find? key with
  | some v => rfl
  | none => rfl

end Fields

namespace Scope

variable (scope : Scope) {op : Operator} {fields others : Fields}

/-- The dates of fields that agree are adjusted alike. -/
theorem dateAdjustment_of_slots
    (hreplaced : ∀ key ∈ ["y", "M", "d"], (Operator.calendarSlot .null key).Agree (fields.value key)
      (others.find? key))
    (hadded : ∀ key ∈ ["dy", "dM", "dd"], (Operator.calendarSlot (.integer 0) key).Agree (fields.value key)
      (others.find? key)) : fields.dateAdjustment = others.dateAdjustment :=
  Fields.dateAdjustment_congr (fun key hkey => Fields.whole?_eq_of_agree (hreplaced key hkey))
    fun key hkey => Fields.addition_eq_of_agree (hadded key hkey)

/-- So are the times. -/
theorem timeAdjustment_of_slots
    (hreplaced : ∀ key ∈ ["h", "m", "s", "ms"], (Operator.calendarSlot .null key).Agree (fields.value key)
      (others.find? key))
    (hadded : ∀ key ∈ ["dh", "dm", "ds", "dms"], (Operator.calendarSlot (.integer 0) key).Agree
      (fields.value key) (others.find? key)) : fields.timeAdjustment = others.timeAdjustment :=
  Fields.timeAdjustment_congr (fun key hkey => Fields.whole?_eq_of_agree (hreplaced key hkey))
    fun key hkey => Fields.addition_eq_of_agree (hadded key hkey)

/-- `Eval` takes a default that is missing for null, so it must be present, unless the variable is bound. -/
theorem seesAlike_eval (hpath : fields.value "v" = others.value "v")
    (hvalue : fields.value "d" = (others.find? "d").getD (.string ""))
    (hdefault : (others.find? "d").isSome ∨
      ((others.value "v").toText?.bind fun path => Path.resolve? path scope.bindings).isSome) :
    scope.SeesAlike Eq fields others .eval := by
  refine ⟨congrArg Value.toText? hpath, fun hunbound => ?_⟩
  rw [hunbound] at hdefault
  obtain ⟨v, hv⟩ := Option.isSome_iff_exists.1 (hdefault.resolve_right (by decide))
  rw [hvalue, Fields.value, hv]
  rfl

/-- A look-up on equal operands finds equal values. -/
theorem seesAlike_get (htarget : fields.value "v" = others.value "v")
    (hkey : fields.value "k" = others.value "k") (hvalue : fields.value "d" = others.value "d") :
    scope.SeesAlike Eq fields others .get := by
  refine ⟨?_, hvalue⟩
  rw [htarget, hkey]
  exact rel_self fun _ => rfl

/-- Equal operands exceed each other alike, where equality is included or excluded alike. -/
theorem seesAlike_comparison (hop : op = .greater ∨ op = .less)
    (hleft : fields.value "s1" = others.value "s1") (hright : fields.value "s2" = others.value "s2")
    (htruth : (fields.value "e").isTruthy = (others.value "e").isTruthy) :
    scope.SeesAlike Eq fields others op := by
  rcases hop with rfl | rfl
  · rw [SeesAlike, htruth, hleft, hright]
  · rw [SeesAlike, htruth, hleft, hright]

/-- An operator sees fields alike that agree slot by slot, `Eval` with the condition on its default. -/
theorem seesAlike_of_slots (h : ∀ slot ∈ op.slots, slot.Agree (fields.value slot.key) (others.find? slot.key))
    (hdefault : op = .eval → (others.find? "d").isSome ∨
      ((others.value "v").toText?.bind fun path => Path.resolve? path scope.bindings).isSome) :
    scope.SeesAlike Eq fields others op := by
  -- the slots of the operator, one by one; each of them says what `Slot.Agree` says of its role
  cases op with
  | eval =>
      exact scope.seesAlike_eval (h ⟨"v", .must .path, .null⟩ (.head _))
        (h ⟨"d", .free, .string ""⟩ (.tail _ (.head _))) (hdefault rfl)
  | not => exact h ⟨"v", .truth, .null⟩ (.head _)
  | bool => exact congrArg Value.isTruthy (h ⟨"v", .free, .null⟩ (.head _))
  | and | or => exact Role.Agree.truths? (h ⟨"s", .statements, .null⟩ (.head _))
  | equal =>
      exact congrArg₂ Value.looselyEqual (h ⟨"s1", .free, .null⟩ (.head _))
        (h ⟨"s2", .free, .null⟩ (.tail _ (.head _)))
  | greater | less =>
      exact scope.seesAlike_comparison (by decide) (h ⟨"s1", .must .comparable, .null⟩ (.head _))
        (h ⟨"s2", .must .comparable, .null⟩ (.tail _ (.head _)))
        (h ⟨"e", .truth, .boolean false⟩ (.tail _ (.tail _ (.head _))))
  | choose =>
      exact ⟨h ⟨"c", .truth, .null⟩ (.head _), h ⟨"t", .free, .null⟩ (.tail _ (.head _)),
        h ⟨"e", .free, .null⟩ (.tail _ (.tail _ (.head _)))⟩
  | get =>
      exact scope.seesAlike_get (h ⟨"v", .must .mapping, .null⟩ (.head _))
        (h ⟨"k", .must .text, .null⟩ (.tail _ (.head _)))
        (h ⟨"d", .free, .null⟩ (.tail _ (.tail _ (.head _))))
  | member =>
      exact congrArg₂ Value.holds (h ⟨"v", .must .container, .null⟩ (.tail _ (.head _)))
        (h ⟨"k", .must .memberKey, .null⟩ (.head _))
  | date =>
      simp only [Operator.slots, Operator.dateSlots, List.forall_mem_append, List.forall_mem_map,
        List.forall_mem_singleton] at h
      obtain ⟨⟨hreplaced, hadded⟩, hstart⟩ := h
      exact ⟨dateAdjustment_of_slots hreplaced hadded, congrArg scope.startDate hstart⟩
  | dateTime =>
      simp only [Operator.slots, Operator.dateSlots, Operator.timeSlots, List.forall_mem_append,
        List.forall_mem_map, List.forall_mem_singleton] at h
      obtain ⟨⟨⟨hreplaced, hadded⟩, hstart⟩, hreplacedTime, haddedTime⟩ := h
      exact ⟨dateAdjustment_of_slots hreplaced hadded,
        timeAdjustment_of_slots hreplacedTime haddedTime, congrArg scope.startTime hstart⟩
  | timeDelta =>
      simp only [Operator.slots, List.forall_mem_cons] at h
      obtain ⟨hd, hs, hm, -⟩ := h
      rw [SeesAlike, Fields.component_eq_of_agree hd, Fields.component_eq_of_agree hs,
        Fields.component_eq_of_agree hm]
  | len => exact congrArg Value.length? (h ⟨"v", .must .sized, .null⟩ (.head _))

/-- **An operator has one result on fields that agree slot by slot.** -/
theorem apply_eq_of_agree
    (h : ∀ slot ∈ op.slots, slot.Agree (fields.value slot.key) (others.find? slot.key))
    (hdefault : op = .eval → (others.find? "d").isSome ∨
      ((others.value "v").toText?.bind fun path => Path.resolve? path scope.bindings).isSome) :
    scope.apply op fields = scope.apply op others :=
  scope.related_apply (fun _ _ => rfl) (fun _ _ _ => rfl) (scope.seesAlike_of_slots h hdefault)

end Scope

/-! ## Records -/

namespace Node

variable {op : Operator} {fields : Entries Value} {w : Value}

/-- The operands of the node that is built from a record agree with its fields, present or missing. -/
theorem agree_ofRecord (scope : Scope) {operands : List Value}
    (h : ofRecord op fields = .ok (.node op operands)) (slot : Slot) (hslot : slot ∈ op.slots) :
    slot.Agree (Fields.value (Value.record op (operands.map (Value.evaluate scope))) slot.key)
      (Entries.find? slot.key (fields.map fun entry => (entry.1, entry.2.evaluate scope))) := by
  obtain ⟨_, heq, hoperands, _⟩ := exists_operandsOf h
  cases heq
  obtain ⟨operand, hfind, hoperand⟩ :=
    exists_operand (op.map_key_slots ▸ op.nodup_fields) hoperands slot hslot
  rw [op.map_key_slots] at hfind
  rw [Fields.value_record hfind, Entries.find?_map]
  exact Slot.agree_operandOf (op.isInert_slots slot hslot) hoperand

/-- **A record means what the node means that is built from it.**  Whatever is missing in it and
whatever else it binds, the node evaluates to the result of the operator on the evaluated fields, to every
part of it.  Only `Eval` must have its default, or a variable that is bound. -/
theorem evaluate_ofRecord (scope : Scope) (h : ofRecord op fields = .ok w)
    (hdefault : op = .eval → (fields.find? "d").isSome ∨
      ∃ path, fields.find? "v" = some (.string path) ∧ (Path.resolve? path scope.bindings).isSome) :
    w.evaluate scope = scope.apply op (fields.map fun entry => (entry.1, entry.2.evaluate scope)) ∧
      ((w.evaluate scope).all Value.isReflexive → (w.evaluate scope).same
        (scope.apply op (fields.map fun entry => (entry.1, entry.2.evaluate scope))) = true) := by
  obtain ⟨operands, rfl, _⟩ := exists_operandsOf h
  have hresult : (Value.node op operands).evaluate scope
      = scope.apply op (fields.map fun entry => (entry.1, entry.2.evaluate scope)) := by
    rw [Value.evaluate_node]
    refine scope.apply_eq_of_agree (agree_ofRecord scope h) fun heval => ?_
    rcases hdefault heval with hd | ⟨path, hv, hbound⟩
    · exact .inl (by rwa [Entries.find?_map, Option.isSome_map])
    · refine .inr ?_
      rw [Fields.value, Entries.find?_map, hv]
      exact hbound
  refine ⟨hresult, fun hreflexive => ?_⟩
  rw [← hresult]
  exact Value.same_self hreflexive

/-- A variable without a default, under a key that comes after one that is no field. -/
theorem evaluate_ofRecord_bound :
    let scope : Scope := ⟨[("n", .float 3)], default⟩
    let fields : Entries Value := [("z", .null), ("v", .string "n")]
    let w := Value.node .eval [.string "n", .string ""]
    (ofRecord .eval fields = .ok w ∧ fields.find? "v" = some (.string "n") ∧
        (Path.resolve? "n" scope.bindings).isSome) ∧
      w.evaluate scope = scope.apply .eval (fields.map fun entry => (entry.1, entry.2.evaluate scope)) ∧
        ((w.evaluate scope).all Value.isReflexive → (w.evaluate scope).same
          (scope.apply .eval (fields.map fun entry => (entry.1, entry.2.evaluate scope))) = true) := by
  intro scope fields w
  have hbuild : ofRecord .eval fields = .ok w := rfl
  have hpath : fields.find? "v" = some (.string "n") := rfl
  have hbound : (Path.resolve? "n" scope.bindings).isSome = true := by decide
  exact ⟨⟨hbuild, hpath, hbound⟩,
    evaluate_ofRecord scope hbuild fun _ => .inr ⟨"n", hpath, hbound⟩⟩

/-- Without a default, a variable that is bound to `nan` is `nan` both ways, which is not equal to itself; one
that is not bound is the empty text as a node, and null as a record. -/
theorem evaluate_ofRecord_unequal :
    let scope : Scope := ⟨[("x", .float .nan)], default⟩
    let nan : Entries Value := [("v", .string "x")]
    let unbound : Entries Value := [("v", .string "y")]
    (ofRecord .eval nan = .ok (.node .eval [.string "x", .string ""]) ∧
        ((Value.node .eval [.string "x", .string ""]).evaluate scope).same
          (scope.apply .eval (nan.map fun entry => (entry.1, entry.2.evaluate scope))) = false) ∧
      ofRecord .eval unbound = .ok (.node .eval [.string "y", .string ""]) ∧
        ((Value.node .eval [.string "y", .string ""]).evaluate scope).same
          (scope.apply .eval (unbound.map fun entry => (entry.1, entry.2.evaluate scope))) = false :=
  ⟨⟨rfl, by decide⟩, rfl, by decide⟩

end Node

end Latent

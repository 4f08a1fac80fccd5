import Latent.Node.Build
import Latent.Proofs.Evaluate.Operators
import Latent.Proofs.Value.Settled

/-!
# Operators do not see the form of numbers

Two sets of fields *agree* for an operator when their values are alike, or, where the operator looks at
the truth of a field alone, equally true.  An operator has alike results on fields that agree.
-/

namespace Latent

open Value (Alike)

/-! ## Agreement -/

/-- An operator that uses a field in the given role does not tell the values apart. -/
def Role.Agree : Role → Value → Value → Prop
  | truth, v, w => v.isTruthy = w.isTruthy
  | statements, v, w => ∃ items others, v = .list items ∧ w = .list others ∧
      items.map Value.isTruthy = others.map Value.isTruthy
  | _, v, w => Alike v w

/-- The fields of an operator with their roles. -/
def Operator.roles (op : Operator) : List (String × Role) :=
  op.slots.map fun slot => (slot.key, slot.role)

/-- The values of all fields of an operator agree. -/
def Fields.Agree (op : Operator) (fields others : Fields) : Prop :=
  ∀ field role, (field, role) ∈ op.roles → role.Agree (fields.value field) (others.value field)

/-- Statements that agree have the same truths. -/
theorem Role.Agree.truths? {v w : Value} (h : Role.statements.Agree v w) : v.truths? = w.truths? := by
  obtain ⟨items, others, rfl, rfl, htruth⟩ := h
  exact congrArg some htruth

/-! ## Views of fields -/

namespace Fields

variable {fields others : Fields} {key : String}

/-- Like fields hold one whole number. -/
theorem whole?_congr (h : Alike (fields.value key) (others.value key)) :
    fields.whole? key = others.whole? key := by
  rw [whole?, whole?, h.toBinary64?]

/-- Like fields are one component. -/
theorem component_congr (h : Alike (fields.value key) (others.value key)) :
    fields.component key = others.component key := by
  rw [component, component, h.toBinary64?]

/-- Six numbers make the adjustment of a date. -/
theorem dateAdjustment_congr
    (hreplaced : ∀ key ∈ ["y", "M", "d"], fields.whole? key = others.whole? key)
    (hadded : ∀ key ∈ ["dy", "dM", "dd"], fields.addition key = others.addition key) :
    fields.dateAdjustment = others.dateAdjustment := by
  unfold dateAdjustment override?
  rw [hreplaced "y" (by decide), hreplaced "M" (by decide), hreplaced "d" (by decide),
    hadded "dy" (by decide), hadded "dM" (by decide), hadded "dd" (by decide)]

/-- Eight numbers make that of a time. -/
theorem timeAdjustment_congr
    (hreplaced : ∀ key ∈ ["h", "m", "s", "ms"], fields.whole? key = others.whole? key)
    (hadded : ∀ key ∈ ["dh", "dm", "ds", "dms"], fields.addition key = others.addition key) :
    fields.timeAdjustment = others.timeAdjustment := by
  unfold timeAdjustment
  rw [hreplaced "h" (by decide), hreplaced "m" (by decide), hreplaced "s" (by decide),
    hreplaced "ms" (by decide), hadded "dh" (by decide), hadded "dm" (by decide),
    hadded "ds" (by decide), hadded "dms" (by decide)]

end Fields

/-- Values in the same places of the order exceed one another alike. -/
theorem Value.exceeds_congr {v v' w w' : Value} {inclusive : Bool} (hv : v.ordinal? = v'.ordinal?)
    (hw : w.ordinal? = w'.ordinal?) : v.exceeds inclusive w = v'.exceeds inclusive w' := by
  rw [exceeds, exceeds, hv, hw]

/-! ## Lookups -/

namespace Value

theorem entries?_settled (v : Value) :
    v.settled.entries? = v.entries?.map fun entries =>
      entries.map fun entry => (entry.1, entry.2.settled) := by
  cases v with
  | map entries => rw [settled_map]; rfl
  | list items => rw [settled_list]; rfl
  | node op operands => rw [settled_node]; rfl
  | _ => rw [settled_leaf rfl, view_settledLeaf entries? fun _ _ => rfl]; rfl

/-- What a key is bound to is found settled. -/
theorem bound?_settled (target key : Value) :
    target.settled.bound? key.settled = (target.bound? key).map settled := by
  rw [bound?, bound?, toText?_settled, entries?_settled]
  cases key.toText? with
  | none => rfl
  | some key =>
      cases target.entries? with
      | none => rfl
      | some entries => exact Entries.find?_map settled key entries

/-- Membership does not see the form of numbers. -/
theorem holds_settled (container key : Value) :
    container.settled.holds key.settled = container.holds key := by
  cases container with
  | list items =>
      rw [settled_list, holds, holds, List.any_map]
      refine congrArg (List.any items) (funext fun item => ?_)
      exact looselyEqual_settled item key
  | map entries =>
      have hfind (key : String) : (Entries.find? key
          (entries.map fun entry => (entry.1, entry.2.settled))).map isTruthy
            = (Entries.find? key entries).map isTruthy := by
        rw [Entries.find?_map, Option.map_map]
        exact congrArg (Option.map · _) (funext isTruthy_settled)
      rw [settled_map, holds, holds, asKey?_settled]
      cases key.asKey? with
      | none => rfl
      | some key => exact congrArg (Option.getD · false) (hfind key)
  | string text =>
      show (string text).holds key.settled = _
      rw [holds, holds, toText?_settled]
  | node op operands => rw [settled_node]; rfl
  | _ => rw [settled_leaf rfl, view_settledLeaf (holds · _) fun _ _ => rfl]; rfl

end Value

/-! ## Operators -/

namespace Scope

variable (scope : Scope) {op : Operator} {fields others : Fields}

theorem startDate_settled (v : Value) : scope.startDate v.settled = scope.startDate v :=
  Value.view_settled (fun _ _ => rfl) (fun _ => rfl) (fun _ => rfl) (fun _ _ => rfl) v

theorem startTime_settled (v : Value) : scope.startTime v.settled = scope.startTime v :=
  Value.view_settled (fun _ _ => rfl) (fun _ => rfl) (fun _ => rfl) (fun _ _ => rfl) v

/-- The whole numbers of fields that agree are equal, and so are the adjustments that they make. -/
theorem whole?_agree (h : Fields.Agree op fields others) {key : String}
    (hkey : (key, .must .calendar) ∈ op.roles) : fields.whole? key = others.whole? key :=
  Fields.whole?_congr (h key (.must .calendar) hkey)

theorem dateAdjustment_agree (h : Fields.Agree op fields others)
    (hroles : ∀ key ∈ Operator.dateFields.take 6, (key, .must .calendar) ∈ op.roles) :
    fields.dateAdjustment = others.dateAdjustment :=
  Fields.dateAdjustment_congr
    (fun key hkey => whole?_agree h (hroles key (List.mem_of_mem_take (i := 3) hkey)))
    (fun key hkey => congrArg (Option.getD · 0)
      (whole?_agree h (hroles key (List.mem_of_mem_drop (i := 3) hkey))))

theorem timeAdjustment_agree (h : Fields.Agree op fields others)
    (hroles : ∀ key ∈ Operator.timeFields, (key, .must .calendar) ∈ op.roles) :
    fields.timeAdjustment = others.timeAdjustment :=
  Fields.timeAdjustment_congr
    (fun key hkey => whole?_agree h (hroles key (List.mem_of_mem_take (i := 4) hkey)))
    (fun key hkey => congrArg (Option.getD · 0)
      (whole?_agree h (hroles key (List.mem_of_mem_drop (i := 4) hkey))))

/-- An operator sees fields alike that agree in their roles. -/
theorem seesAlike_of_agree (h : Fields.Agree op fields others) :
    scope.SeesAlike Alike fields others op := by
  have halike (key : String) (role : Role) (hkey : (key, role) ∈ op.roles)
      (hrole : role.Agree = Alike) : Alike (fields.value key) (others.value key) :=
    hrole ▸ h key role hkey
  cases op with
  | eval =>
      exact ⟨(halike "v" (.must .path) (by decide) rfl).toText?, fun _ => h "d" .free (by decide)⟩
  | not => exact h "v" .truth (by decide)
  | bool => exact (halike "v" .free (by decide) rfl).isTruthy
  | and | or => exact Role.Agree.truths? (h "s" .statements (by decide))
  | equal =>
      exact (halike "s1" .free (by decide) rfl).looselyEqual (halike "s2" .free (by decide) rfl)
  | greater | less =>
      have hleft := (halike "s1" (.must .comparable) (by decide) rfl).ordinal?
      have hright := (halike "s2" (.must .comparable) (by decide) rfl).ordinal?
      have htruth : (fields.value "e").isTruthy = (others.value "e").isTruthy := h "e" .truth (by decide)
      rw [SeesAlike, htruth]
      first
        | exact Value.exceeds_congr hleft hright
        | exact Value.exceeds_congr hright hleft
  | choose => exact ⟨h "c" .truth (by decide), h "t" .free (by decide), h "e" .free (by decide)⟩
  | get =>
      have htarget := halike "v" (.must .mapping) (by decide) rfl
      have hkey := halike "k" (.must .text) (by decide) rfl
      refine ⟨rel_of_map_eq ?_, h "d" .free (by decide)⟩
      rw [← Value.bound?_settled, ← Value.bound?_settled, htarget, hkey]
  | member =>
      have hkey := halike "k" (.must .memberKey) (by decide) rfl
      have hcontainer := halike "v" (.must .container) (by decide) rfl
      rw [SeesAlike, ← Value.holds_settled, ← Value.holds_settled (others.value "v"), hkey, hcontainer]
  | date =>
      exact ⟨dateAdjustment_agree h (by decide),
        (halike "start" .free (by decide) rfl).view scope.startDate_settled⟩
  | dateTime =>
      exact ⟨dateAdjustment_agree h (by decide), timeAdjustment_agree h (by decide),
        (halike "start" .free (by decide) rfl).view scope.startTime_settled⟩
  | timeDelta =>
      have hpart (key : String) (hkey : (key, .must .duration) ∈ Operator.roles .timeDelta) :
          fields.component key = others.component key :=
        Fields.component_congr (h key (.must .duration) hkey)
      rw [SeesAlike, hpart "d" (by decide), hpart "s" (by decide), hpart "m" (by decide)]
  | len => exact (halike "v" (.must .sized) (by decide) rfl).length?

/-- **An operator has alike results on fields that agree.** -/
theorem apply_agree (h : Fields.Agree op fields others) :
    Alike (scope.apply op fields) (scope.apply op others) :=
  scope.related_apply (fun v _ => .refl v) (fun _ v _ => .refl v) (scope.seesAlike_of_agree h)

end Scope

end Latent

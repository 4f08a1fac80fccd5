import Latent.Proofs.Evaluate.Operators
import Latent.Proofs.Value.Parts

/-!
# The parts of results

An operator makes its result itself, or finds it: among its fields, in a map that is one of them, or
along a path among the variables.  What it makes is a leaf of a few forms (`Value.isComputed`), and what
it finds is a part of what it was given.  So a condition that holds of every part of the fields and the
variables, and of the leaves that operators make, holds of every part of the result.
-/

namespace Latent

/-! ## What is found -/

section

variable {p : Value → Bool}

/-- An item at a position is one of the items. -/
theorem Path.mem_of_itemAt? {items : List Value} {segment : List Char} {v : Value}
    (h : itemAt? items segment = some v) : v ∈ items := by
  unfold itemAt? at h
  split at h
  · split at h
    · exact List.mem_of_getElem? h
    · cases h
  · cases h

/-- What a path reaches is a part of the value. -/
theorem Path.all_of_reach? {segments : List (List Char)} {v w : Value}
    (h : reach? segments v = some w) (hv : v.all p) : w.all p := by
  induction segments generalizing v with
  | nil => cases h
  | cons segment rest ih =>
      cases v with
      | map entries =>
          have hentry {key : String} {v : Value} (hfind : Entries.find? key entries = some v) :
              v.all p := (Value.all_map.1 hv).2 (key, v) (Entries.mem_of_find? hfind)
          rw [reach?] at h
          -- the rest of the path may be one key, dots and all
          split at h
          · rename_i v hwhole
            cases h
            exact hentry hwhole
          · split at h
            · cases h
            · obtain ⟨v, hfirst, hrest⟩ := Option.bind_eq_some_iff.1 h
              exact ih hrest (hentry hfirst)
      | list items =>
          have hitem {v : Value} (hat : itemAt? items segment = some v) : v.all p :=
            (Value.all_list.1 hv).2 v (mem_of_itemAt? hat)
          rw [reach?] at h
          split at h
          · exact hitem h
          · obtain ⟨v, hfirst, hrest⟩ := Option.bind_eq_some_iff.1 h
            exact ih hrest (hitem hfirst)
      | _ => cases h

/-- What a map binds to a text is a part of the map. -/
theorem Value.all_of_bound? {target key v : Value} (h : target.bound? key = some v)
    (htarget : target.all p) : v.all p := by
  obtain ⟨key, _, h⟩ := Option.bind_eq_some_iff.1 h
  obtain ⟨entries, hentries, hfind⟩ := Option.bind_eq_some_iff.1 h
  cases target with
  | map _ =>
      cases hentries
      exact (all_map.1 htarget).2 (key, v) (Entries.mem_of_find? hfind)
  | _ => cases hentries

/-- What is found, or a value in its place. -/
theorem Value.all_getD {found : Option Value} {v : Value} (hfound : ∀ w, found = some w → w.all p)
    (hv : v.all p) : (found.getD v).all p := by
  cases found with
  | none => exact hv
  | some w => exact hfound w rfl

end

/-! ## What is made -/

namespace Scope

/-- **An operator makes a leaf, or finds a part of what it was given.** -/
theorem all_apply {p : Value → Bool} (scope : Scope) (op : Operator) {fields : Fields}
    (hcomputed : ∀ v : Value, v.isComputed → p v) (hscope : (Value.map scope.bindings).all p)
    (hfields : ∀ key, (fields.value key).all p) : (scope.apply op fields).all p := by
  have hmade (v : Value) (h : v.isComputed) : v.all p := by
    cases v with
    | null | boolean _ | integer _ | date _ | dateTime _ | duration _ => exact hcomputed _ h
    | _ => cases h
  -- an operator sees its own fields alike, and hands on what meets the condition
  suffices hsees : scope.SeesAlike (fun v _ => v.all p) fields fields op from
    scope.related_apply hmade (fun path v h => Path.all_of_reach? h hscope) hsees
  cases op with
  | eval => exact ⟨rfl, fun _ => hfields "d"⟩
  | choose => exact ⟨rfl, hfields "t", hfields "e"⟩
  | get =>
      refine ⟨?_, hfields "d"⟩
      cases hfound : (fields.value "v").bound? (fields.value "k") with
      | none => exact .none
      | some v => exact .some (Value.all_of_bound? hfound (hfields "v"))
  | date => exact ⟨rfl, rfl⟩
  | dateTime => exact ⟨rfl, rfl, rfl⟩
  | _ => rfl

end Scope

end Latent

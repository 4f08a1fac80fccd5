import Latent.Proofs.Evaluate.Finished
import Latent.Proofs.Wire.Modes
import Latent.Proofs.Wire.Rebuilding

/-!
# Plain data on the wire

Null, truth values, whole numbers and texts in lists and maps are evaluated to themselves.  They are
written as they are, so a map that binds the key of a tag to the name of an operator reads as a record
of it: there is no other way to write one.  Without such a map plain data is revived as itself, whatever
becomes of records, and with one it is not rebuilt.
-/

namespace Latent

namespace Value

/-- Plain data, its parts aside: no node, no calendar value, no other number than a whole one. -/
def isPlainData : Value → Bool
  | null | boolean _ | integer _ | string _ | list _ | map _ => true
  | _ => false

variable {revival : Revival} {v : Value}

/-! ## Evaluation -/

/-- Plain data is evaluated already. -/
theorem isEvaluated_of_isPlainData (h : v.isPlainData) : v.isEvaluated := by
  cases v with
  | null | boolean _ | integer _ | string _ | list _ | map _ => rfl
  | _ => cases h

/-- Nothing is evaluated in plain data. -/
theorem evaluate_plainData (scope : Scope) (h : v.all isPlainData) : v.evaluate scope = v :=
  evaluate_eq_self scope (all_of_imp (fun _ => isEvaluated_of_isPlainData) h)

/-! ## Without records -/

/-- Plain data in which no map reads as a record is carried to itself. -/
theorem carries_plainData (h : v.all fun v => v.isPlainData && v.isUntagged) :
    Carries revival v v := by
  induction v, h using all_induction with
  | leaf v h hleaf =>
      have hplain : v.isPlainData = true := (Bool.and_eq_true_iff.1 (holds_of_all h)).1
      match v, hleaf with
      | null, _ => exact carries_null
      | boolean b, _ => exact carries_boolean b
      | integer i, _ => exact carries_integer i
      | string s, _ => exact carries_string s
      | float _, _ | decimal _, _ | date _, _ | dateTime _, _ | time _, _ | duration _, _ =>
          cases hplain
  | list items _ ih =>
      have hcarries : Carries revival (list items) (list (items.map id)) := carries_list ih
      rwa [List.map_id] at hcarries
  | map entries h ih =>
      have hnone : (tag? entries).isNone := (Bool.and_eq_true_iff.1 (holds_of_all h)).2
      have hcarries : Carries revival (map entries)
          (map (entries.map fun entry => (entry.1, id entry.2))) :=
        carries_map (Option.isNone_iff_eq_none.1 hnone) ih
      have hself : entries.map (fun entry => (entry.1, id entry.2)) = entries := List.map_id entries
      rwa [hself] at hcarries
  | node op operands h _ => cases (Bool.and_eq_true_iff.1 (holds_of_all h)).1

/-! ## With records -/

/-- Plain data has a tree. -/
theorem hasWireForm_of_isPlainData (h : v.isPlainData) : v.hasWireForm := by
  cases v with
  | time _ => cases h
  | _ => rfl

/-- What is rebuilt as itself, and is plain data, has no map that reads as a record. -/
theorem isUntagged_of_carries (h : v.all isPlainData) (hcarries : Carries .rebuilding v v) :
    v.all isUntagged := by
  induction v, h using all_induction with
  | leaf v _ hleaf =>
      cases v with
      | list _ | map _ | node _ _ => cases hleaf
      | _ => rfl
  | list items _ ih =>
      obtain ⟨tree, htree, hrevive⟩ := hcarries
      obtain ⟨trees, htrees, htree⟩ := exists_of_bind_eq_ok htree
      cases htree
      obtain ⟨values, hvalues, hrevive⟩ := exists_of_bind_eq_ok hrevive
      cases hrevive
      have hitems := List.forall₂_same.1 (carries_of_items htrees hvalues)
      exact all_list.2 ⟨rfl, fun v hv => ih v hv (hitems v hv)⟩
  | map entries _ ih =>
      obtain ⟨tree, htree, hrevive⟩ := hcarries
      obtain ⟨trees, htrees, htree⟩ := exists_of_bind_eq_ok htree
      cases htree
      obtain ⟨values, hvalues, hrevive⟩ := exists_of_bind_eq_ok hrevive
      rw [tag?_entriesToJson htrees] at hrevive
      cases htag : tag? entries with
      | some op =>
          -- a record is rebuilt as a node, and no map is one
          rw [htag] at hrevive
          obtain ⟨_, hnode, _⟩ := exists_of_finish hrevive
          cases hnode
      | none =>
          rw [htag] at hrevive
          cases hrevive
          have hentries := List.forall₂_same.1 (carries_of_entries htrees hvalues)
          refine all_map.2 ⟨?_, fun entry hentry => ih entry hentry (hentries entry hentry)⟩
          rw [isUntagged, htag]
          rfl
  | node op operands h _ => cases holds_of_all h

/-- **Plain data is left alone exactly when no map in it reads as a record.**  Evaluation never changes
it; both ways of reviving what was written give it back unless some map is tagged with an operator. -/
theorem revive_toJson_plainData (h : v.all isPlainData) :
    ∃ tree, v.toJson = .ok tree ∧ (∀ scope, v.evaluate scope = v) ∧
      ((∀ revival, revive revival tree = .ok v) ↔ v.all isUntagged) := by
  obtain ⟨tree, htree⟩ := exists_toJson (all_of_imp (fun _ => hasWireForm_of_isPlainData) h)
  refine ⟨tree, htree, fun scope => evaluate_plainData scope h, fun hrevive => ?_, fun htag revival => ?_⟩
  · exact isUntagged_of_carries h ⟨tree, htree, hrevive .rebuilding⟩
  · have hcarries : Carries revival v v := carries_plainData (all_and h htag)
    obtain ⟨other, hother, hrevive⟩ := hcarries
    rw [htree] at hother
    cases hother
    exact hrevive

/-- Maps that bind the key of a tag to a text that names no operator, and to a number. -/
theorem revive_toJson_plainData_list :
    let v := list [map [(tagKey, string "not"), ("Not", list [integer (-3), null])],
      map [(tagKey, integer 1)], string "Not", boolean true]
    v.all isPlainData ∧ ∃ tree, v.toJson = .ok tree ∧ (∀ scope, v.evaluate scope = v) ∧
      ((∀ revival, revive revival tree = .ok v) ↔ v.all isUntagged) :=
  have hplain := by decide
  ⟨hplain, revive_toJson_plainData hplain⟩

/-- A map that binds the key of a tag to `Not` does not come back: it is evaluated to a truth value, and
rebuilt as a node. -/
theorem revive_toJson_tagged :
    let v := map [(tagKey, string "Not")]
    v.all isPlainData ∧
      (∃ tree, v.toJson = .ok tree ∧ revive (.evaluating default) tree = .ok (boolean true) ∧
        revive .rebuilding tree = .ok (node .not [node .bool [null]])) ∧
      ¬ ∃ tree, v.toJson = .ok tree ∧ ∀ revival, revive revival tree = .ok v := by
  intro v
  have htree : v.toJson = .ok (.object [(tagKey, .string "Not")]) := rfl
  have hevaluated : revive (.evaluating default) (.object [(tagKey, .string "Not")])
      = .ok (boolean true) := rfl
  refine ⟨by decide, ⟨_, htree, hevaluated, rfl⟩, ?_⟩
  rintro ⟨tree, hother, hrevive⟩
  rw [htree] at hother
  cases hother
  have hself := hevaluated.symm.trans (hrevive (.evaluating default))
  have hvalue : boolean true = map [(tagKey, string "Not")] := Except.ok.inj hself
  cases hvalue

end Value

end Latent

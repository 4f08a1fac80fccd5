import Latent.Proofs.Evaluate.Parts
import Latent.Proofs.Value.PlainForm

/-!
# Evaluation is finished

What is evaluated has no node in it and no number that is not in its plain form, if the variables have
none: an operator makes no such value, and finds none in fields that are evaluated before it
(`all_isEvaluated_evaluate`).  A value without them evaluates to itself (`evaluate_eq_self`), so nothing is
left for a second evaluation.
-/

namespace Latent

/-- A field is one of the entries, or null. -/
theorem Fields.all_value {p : Value → Bool} {fields : Fields} (hnull : p .null)
    (h : ∀ entry ∈ fields, entry.2.all p) (key : String) : (fields.value key).all p :=
  Value.all_getD (fun v hfind => h (key, v) (Entries.mem_of_find? hfind)) hnull

namespace Value

/-- Nothing is left to evaluate, the parts of the value aside: it is no node, no decimal number, and no
binary64 number that is not finite or equals a whole number of 64 bits. -/
def isEvaluated : Value → Bool
  | node _ _ | decimal _ => false
  | float x => x.isFinite && x.toInt64?.isNone
  | _ => true

/-- The plain form of a number is evaluated. -/
theorem isEvaluated_ofBinary64 (x : Binary64) : (ofBinary64 x).isEvaluated := by
  by_cases hfinite : x.isFinite = true
  · rw [ofBinary64_finite hfinite]
    cases hwhole : x.toInt64? with
    | some i => rfl
    | none => simp [isEvaluated, hfinite, hwhole]
  · rw [ofBinary64, if_neg hfinite]
    rfl

theorem isEvaluated_ofDecimal (d : Decimal) : (ofDecimal d).isEvaluated := by
  unfold ofDecimal
  split
  · rfl
  · exact isEvaluated_ofBinary64 _

theorem isLeaf_ofBinary64 (x : Binary64) : (ofBinary64 x).isLeaf := by
  unfold ofBinary64
  split
  · split <;> rfl
  · rfl

theorem isLeaf_ofDecimal (d : Decimal) : (ofDecimal d).isLeaf := by
  unfold ofDecimal
  split
  · rfl
  · exact isLeaf_ofBinary64 _

/-- What operators make is evaluated. -/
theorem isEvaluated_of_isComputed {v : Value} (h : v.isComputed) : v.isEvaluated := by
  cases v with
  | float _ | decimal _ | node _ _ => cases h
  | _ => rfl

/-- A leaf evaluates to an evaluated leaf. -/
theorem all_isEvaluated_of_isLeaf (scope : Scope) {v : Value} (h : v.isLeaf) :
    (v.evaluate scope).all isEvaluated := by
  cases v with
  | list _ | map _ | node _ _ => cases h
  | float x => exact all_of_isLeaf (isLeaf_ofBinary64 x) (isEvaluated_ofBinary64 x)
  | decimal d => exact all_of_isLeaf (isLeaf_ofDecimal d) (isEvaluated_ofDecimal d)
  | _ => rfl

/-- **Nothing is left to evaluate in a result**, if nothing is in the variables. -/
theorem all_isEvaluated_evaluate {scope : Scope} (hscope : (map scope.bindings).all isEvaluated)
    (v : Value) : (v.evaluate scope).all isEvaluated := by
  induction v using Value.induction with
  | leaf v hleaf => exact all_isEvaluated_of_isLeaf scope hleaf
  | list items ih =>
      rw [evaluate_list]
      exact all_list.2 ⟨rfl, List.forall_mem_map.2 ih⟩
  | map entries ih =>
      rw [evaluate_map]
      exact all_map.2 ⟨rfl, List.forall_mem_map.2 ih⟩
  | node op operands ih =>
      -- the operands are evaluated first, so the operator finds nothing else among its fields
      rw [evaluate_node]
      have hoperands : ∀ w ∈ operands.map (evaluate scope), w.all isEvaluated :=
        List.forall_mem_map.2 ih
      refine scope.all_apply op (fun _ => isEvaluated_of_isComputed) hscope (Fields.all_value rfl ?_)
      intro entry hentry
      exact hoperands entry.2 (List.of_mem_zip hentry).2

/-- An evaluated leaf evaluates to itself. -/
theorem evaluate_leaf_eq_self (scope : Scope) {v : Value} (hleaf : v.isLeaf) (h : v.isEvaluated) :
    v.evaluate scope = v := by
  cases v with
  | list _ | map _ | node _ _ => cases hleaf
  | decimal _ => cases h
  | float x =>
      obtain ⟨hfinite, hwhole⟩ := Bool.and_eq_true_iff.1 h
      rw [evaluate, ofBinary64_finite hfinite, Option.isNone_iff_eq_none.1 hwhole]
  | _ => rfl

/-- **Where nothing is left to evaluate, nothing changes.** -/
theorem evaluate_eq_self (scope : Scope) {v : Value} (h : v.all isEvaluated) :
    v.evaluate scope = v := by
  induction v, h using all_induction with
  | leaf v h hleaf => exact evaluate_leaf_eq_self scope hleaf (holds_of_all h)
  | list items _ ih => rw [evaluate_list, List.map_congr_left ih, List.map_id']
  | map entries _ ih =>
      have hentries : ∀ entry ∈ entries, (entry.1, entry.2.evaluate scope) = entry :=
        fun entry hentry => congrArg (Prod.mk entry.1) (ih entry hentry)
      rw [evaluate_map, List.map_congr_left hentries, List.map_id']
  | node op operands h _ => cases holds_of_all h

/-- **Evaluation leaves nothing to evaluate**, and a second one, whatever its variables and its clock,
changes nothing. -/
theorem evaluate_evaluate {scope : Scope} (hscope : (map scope.bindings).all isEvaluated)
    (v : Value) : (v.evaluate scope).all isEvaluated ∧
      ∀ other : Scope, (v.evaluate scope).evaluate other = v.evaluate scope := by
  have hresult := all_isEvaluated_evaluate hscope v
  exact ⟨hresult, fun other => evaluate_eq_self other hresult⟩

/-- The least positive number is looked up, and a literal is a map of numbers in no plain form. -/
theorem evaluate_evaluate_get :
    let scope : Scope := ⟨[("x", list [null, float (.ofUnits false 1)])], default⟩
    let v := list [node .eval [string "x.1", node .not [null]],
      node .get [map [("k", float .nan), ("l", decimal ⟨15, 1⟩)], string "m", float (.ofInt 7)]]
    (map scope.bindings).all isEvaluated ∧ (v.evaluate scope).all isEvaluated ∧
      ∀ other : Scope, (v.evaluate scope).evaluate other = v.evaluate scope := by
  intro scope v
  have hscope : (map scope.bindings).all isEvaluated := by decide +kernel
  exact ⟨hscope, evaluate_evaluate hscope v⟩

end Value

end Latent

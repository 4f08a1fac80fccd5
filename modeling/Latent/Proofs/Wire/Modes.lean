import Latent.Proofs.Evaluate.Records
import Latent.Proofs.Json.Parts
import Latent.Proofs.Wire.Carries

/-!
# Two ways of reviving

A tree is revived by evaluating its records, or by rebuilding them as nodes.  Evaluating what was rebuilt
gives what evaluating at once gives, up to the form of numbers: rebuilding brings literals into no plain
form before they are evaluated, and it wraps values whose truth is asked for.  The proof follows the
tree; at a record the revived fields agree with the operands of the rebuilt node, field by field.
-/

namespace Latent

/-! ## Trees on which both ways agree -/

namespace Json

/-- A tagged record binds every field of its operator. -/
def isComplete : Json → Bool
  | object entries =>
    match tag? entries with
    | some op => op.fields.all fun field => (Entries.find? field entries).isSome
    | none => true
  | _ => true

/-- Not the number `-0.0`. -/
def isNotNegativeZero : Json → Bool
  | number (.float x _) => x ≠ Binary64.zero true
  | _ => true

end Json

namespace Value

variable {scope : Scope}

/-- Only a list is settled as a list. -/
theorem exists_of_settled_eq_list {v : Value} {items : List Value} (h : v.settled = list items) :
    ∃ others, v = list others ∧ others.map settled = items := by
  cases v with
  | list others =>
      rw [settled_list] at h
      cases h
      exact ⟨others, rfl, rfl⟩
  | map entries =>
      rw [settled_map] at h
      cases h
  | node op operands =>
      rw [settled_node] at h
      cases h
  | _ =>
      have hleaf := congrArg isLeaf h
      rw [isLeaf_settled] at hleaf
      cases hleaf

/-- An operand that a field makes of a value evaluates to what agrees with the value. -/
theorem agree_operandOf {op : Operator} {field : String} {role : Role} {v operand u : Value}
    (h : Node.operandOf op field v role = .ok operand) (hv : Alike (v.evaluate scope) u) :
    role.Agree (operand.evaluate scope) u := by
  cases role with
  | free =>
      cases h
      exact hv
  | truth =>
      cases h
      exact (isTruthy_evaluate_coerceTruth v).trans hv.isTruthy
  | must r =>
      obtain ⟨_, _, h⟩ := exists_of_bind_eq_ok h
      cases h
      exact hv
  | statements =>
      cases v with
      | list items =>
          obtain ⟨_, _, h⟩ := exists_of_bind_eq_ok h
          cases h
          -- whatever is like a list is a list of like items
          have hlist : u.settled = list ((items.map (evaluate scope)).map settled) := by
            rw [← settled_list, ← evaluate_list]
            exact hv.symm
          rw [evaluate_list]
          obtain ⟨others, rfl, hothers⟩ := exists_of_settled_eq_list hlist
          refine ⟨_, others, rfl, rfl, ?_⟩
          calc ((items.map coerceTruth).map (evaluate scope)).map isTruthy
              = (items.map (evaluate scope)).map isTruthy := map_isTruthy_coerceTruth items
            _ = (others.map settled).map isTruthy := by rw [hothers, map_isTruthy_settled]
            _ = others.map isTruthy := map_isTruthy_settled others
      | _ => cases h

/-! ## Numbers -/

/-- A finite number other than negative zero is alike to its plain form. -/
theorem ofBinary64_alike {x : Binary64} (hfinite : x.isFinite = true)
    (hzero : x ≠ Binary64.zero true) : Alike (ofBinary64 x) (float x) := by
  unfold Alike
  rw [ofBinary64_finite hfinite]
  cases hi : x.toInt64? with
  | none => rfl
  | some i =>
      rw [settled_leaf rfl, settled_leaf rfl]
      show integer i = settledLeaf (float x)
      rw [settledLeaf, if_neg hzero, hi]

/-- A number of JSON evaluates to what is alike to it. -/
theorem toValue_alike {n : Json.Number} (h : (Json.number n).isNotNegativeZero) :
    Alike (n.toValue.evaluate scope) n.toValue := by
  cases hn : n.toInt64? with
  | some i =>
      have hvalue : n.toValue = integer i := by rw [Json.Number.toValue, hn]
      rw [hvalue]
      exact .refl _
  | none =>
      rw [toValue_of_toInt64? hn, evaluate]
      cases n with
      | float x hfinite => exact ofBinary64_alike hfinite (of_decide_eq_true h)
      | whole i hwhole =>
          have hout : ¬ InInt64 i := by
            intro hin
            rw [Json.Number.toInt64?, int64?, if_pos hin] at hn
            cases hn
          have hpositive : 0 ≤ i := by
            unfold Json.IsWhole at hwhole
            unfold InInt64 at hout
            omega
          exact ofBinary64_alike (isFinite_toBinary64 (.whole i hwhole))
            (Binary64.ofInt_ne_negativeZero hpositive)

/-! ## Both ways -/

/-- Both ways give alike results for a tree, if it can be rebuilt. -/
def WaysAgree (scope : Scope) (tree : Json) : Prop :=
  ∀ w, revive .rebuilding tree = .ok w →
    ∃ u, revive (.evaluating scope) tree = .ok u ∧ Alike (w.evaluate scope) u

/-- Both ways give alike items. -/
theorem exists_reviveItems {trees : List Json} (h : ∀ tree ∈ trees, WaysAgree scope tree)
    {values : List Value} (hvalues : reviveItems .rebuilding trees = .ok values) :
    ∃ others, reviveItems (.evaluating scope) trees = .ok others ∧
      (values.map (evaluate scope)).map settled = others.map settled := by
  induction trees generalizing values with
  | nil =>
      cases hvalues
      exact ⟨[], rfl, rfl⟩
  | cons tree trees ih =>
      obtain ⟨v, rest, rfl, hv, hrest⟩ := exists_of_reviveItems_cons hvalues
      obtain ⟨u, hu, halike⟩ := h tree List.mem_cons_self v hv
      obtain ⟨others, hothers, heq⟩ := ih (fun t ht => h t (List.mem_cons_of_mem _ ht)) hrest
      refine ⟨u :: others, reviveItems_cons hu hothers, ?_⟩
      rw [List.map_cons, List.map_cons, List.map_cons, heq]
      exact congrArg (· :: _) halike

/-- Both ways give alike entries, under the same keys. -/
theorem exists_reviveEntries {entries : Entries Json}
    (h : ∀ entry ∈ entries, WaysAgree scope entry.2) {values : Entries Value}
    (hvalues : reviveEntries .rebuilding entries = .ok values) :
    ∃ others, reviveEntries (.evaluating scope) entries = .ok others ∧
      (values.map fun entry => (entry.1, (entry.2.evaluate scope).settled))
        = others.map fun entry => (entry.1, entry.2.settled) := by
  induction entries generalizing values with
  | nil =>
      cases hvalues
      exact ⟨[], rfl, rfl⟩
  | cons entry entries ih =>
      obtain ⟨key, tree⟩ := entry
      obtain ⟨v, rest, rfl, hv, hrest⟩ := exists_of_reviveEntries_cons hvalues
      obtain ⟨u, hu, halike⟩ := h (key, tree) List.mem_cons_self v hv
      obtain ⟨others, hothers, heq⟩ := ih (fun e he => h e (List.mem_cons_of_mem _ he)) hrest
      refine ⟨(key, u) :: others, ?_, ?_⟩
      · rw [reviveEntries, hu, hothers]
        rfl
      · rw [List.map_cons, List.map_cons, heq]
        exact congrArg (fun w => (key, w) :: _) halike

/-- The fields of a record and the operands of the node that is rebuilt from it agree. -/
theorem agree_record {op : Operator} {operands : List Value} {values others : Entries Value}
    (hcomplete : ∀ field ∈ op.fields, (Entries.find? field values).isSome)
    (halike : (values.map fun entry => (entry.1, (entry.2.evaluate scope).settled))
      = others.map fun entry => (entry.1, entry.2.settled))
    (hbuild : Node.ofRecord op (Entries.remove tagKey values) = .ok (node op operands)) :
    Fields.Agree op (record op (operands.map (evaluate scope))) (Entries.remove tagKey others) := by
  intro field role hrole
  obtain ⟨_, heq, hoperands, _⟩ := Node.exists_operandsOf hbuild
  cases heq
  -- the slot of the field, and the operand that was made for it
  obtain ⟨slot, hslot, heq⟩ := List.mem_map.1 hrole
  cases heq
  obtain ⟨operand, hfind, hoperand⟩ :=
    Node.exists_operand (op.map_key_slots ▸ op.nodup_fields) hoperands slot hslot
  rw [op.map_key_slots] at hfind
  have hfield : slot.key ∈ op.fields := op.map_key_slots ▸ List.mem_map_of_mem hslot
  have htag : tagKey ≠ slot.key := fun heq => op.tagKey_notMem_fields (heq ▸ hfield)
  -- the value of the field on either side
  obtain ⟨v, hv⟩ := Option.isSome_iff_exists.1 (hcomplete slot.key hfield)
  have hothers : (Entries.find? slot.key others).map settled = some (v.evaluate scope).settled := by
    rw [← Entries.find?_map, ← halike,
      Entries.find?_map (fun v : Value => (v.evaluate scope).settled), hv, Option.map_some]
  obtain ⟨u, hu, halike⟩ := Option.map_eq_some_iff.1 hothers
  have hright : Fields.value (Entries.remove tagKey others) slot.key = u := by
    rw [Fields.value, Entries.find?_remove_of_ne htag, hu, Option.getD_some]
  have hvalue : (Entries.find? slot.key (Entries.remove tagKey values)).getD slot.missing = v := by
    rw [Entries.find?_remove_of_ne htag, hv, Option.getD_some]
  rw [Fields.value_record hfind, hright]
  rw [hvalue] at hoperand
  exact agree_operandOf hoperand halike.symm

section

variable {items : List Json} {entries : Entries Json}

/-- Both ways agree on an array if they do on its items. -/
theorem waysAgree_array (h : ∀ tree ∈ items, WaysAgree scope tree) :
    WaysAgree scope (.array items) := by
  intro w hw
  rw [revive] at hw
  obtain ⟨values, hvalues, hw⟩ := exists_of_bind_eq_ok hw
  cases hw
  obtain ⟨others, hothers, heq⟩ := exists_reviveItems h hvalues
  refine ⟨list others, ?_, ?_⟩
  · rw [revive, hothers]
    rfl
  · unfold Alike
    rw [evaluate_list, settled_list, settled_list, heq]

/-- They agree on an object without a tag if they do on what it binds. -/
theorem waysAgree_untagged (htag : Json.tag? entries = none)
    (h : ∀ entry ∈ entries, WaysAgree scope entry.2) : WaysAgree scope (.object entries) := by
  intro w hw
  rw [revive, htag] at hw
  obtain ⟨values, hvalues, hw⟩ := exists_of_bind_eq_ok hw
  cases hw
  obtain ⟨others, hothers, heq⟩ := exists_reviveEntries h hvalues
  refine ⟨map others, ?_, ?_⟩
  · rw [revive, hothers, htag]
    rfl
  · unfold Alike
    rw [evaluate_map, settled_map, settled_map, List.map_map, ← heq]
    rfl

/-- They agree on a complete record if they do on its fields. -/
theorem waysAgree_tagged {op : Operator} (htag : Json.tag? entries = some op)
    (hcomplete : (Json.object entries).isComplete)
    (h : ∀ entry ∈ entries, WaysAgree scope entry.2) : WaysAgree scope (.object entries) := by
  intro w hw
  rw [revive, htag] at hw
  obtain ⟨values, hvalues, hw⟩ := exists_of_bind_eq_ok hw
  obtain ⟨others, hothers, heq⟩ := exists_reviveEntries h hvalues
  rw [Json.isComplete, htag] at hcomplete
  have hfields (field : String) (hfield : field ∈ op.fields) :
      (Entries.find? field values).isSome := by
    rw [Entries.isSome_find?_iff, keys_reviveEntries hvalues, ← Entries.isSome_find?_iff]
    exact List.all_eq_true.1 hcomplete field hfield
  refine ⟨scope.apply op (Entries.remove tagKey others), ?_, ?_⟩
  · rw [revive, hothers, htag]
    rfl
  · obtain ⟨operands, rfl, hbuild⟩ := exists_of_finish hw
    unfold Alike
    rw [evaluate_node]
    exact scope.apply_agree (agree_record hfields heq hbuild)

end

/-- Both ways agree on every complete tree without a negative zero. -/
theorem waysAgree {tree : Json} (hcomplete : tree.all Json.isComplete)
    (hzero : tree.all Json.isNotNegativeZero) : WaysAgree scope tree := by
  induction tree, hcomplete using Json.all_induction with
  | leaf tree _ hleaf =>
      intro w hw
      cases tree with
      | number n =>
          cases hw
          exact ⟨_, rfl, toValue_alike (Json.holds_of_all hzero)⟩
      | array _ | object _ => cases hleaf
      | null | boolean _ | string _ =>
          cases hw
          exact ⟨_, rfl, .refl _⟩
  | array items _ ih =>
      exact waysAgree_array fun tree h => ih tree h ((Json.all_array.1 hzero).2 tree h)
  | object entries hcomplete ih =>
      have hagree (entry : String × Json) (h : entry ∈ entries) : WaysAgree scope entry.2 :=
        ih entry h ((Json.all_object.1 hzero).2 entry h)
      cases htag : Json.tag? entries with
      | none => exact waysAgree_untagged htag hagree
      | some op => exact waysAgree_tagged htag (Json.holds_of_all hcomplete) hagree

/-- **To evaluate at once is to rebuild and evaluate.**  The results have one normal form. -/
theorem normal_evaluate_revive (scope : Scope) {tree : Json} {w : Value}
    (hcomplete : tree.all Json.isComplete) (hzero : tree.all Json.isNotNegativeZero)
    (h : revive .rebuilding tree = .ok w) :
    ∃ u, revive (.evaluating scope) tree = .ok u ∧ (w.evaluate scope).normal = u.normal := by
  obtain ⟨u, hu, halike⟩ := waysAgree hcomplete hzero w h
  exact ⟨u, hu, halike.normal_eq⟩

/-- A choice whose condition is a text, with a field that no operator knows, and a binary64 number as
a key. -/
theorem normal_evaluate_revive_choice :
    let tree : Json := .object [(tagKey, .string "If"), ("c", .string "x"), ("other", .null),
      ("t", .object [(tagKey, .string "In"), ("k", .number (.float 2 (by decide +kernel))),
        ("v", .object [("2", .boolean true)])]), ("e", .ofInt64 3)]
    let w := node .choose [node .bool [string "x"],
      node .member [float 2, map [("2", boolean true)]], integer 3]
    (tree.all Json.isComplete ∧ tree.all Json.isNotNegativeZero ∧ revive .rebuilding tree = .ok w) ∧
      ∃ u, revive (.evaluating default) tree = .ok u ∧ (w.evaluate default).normal = u.normal :=
  have hcomplete := by decide +kernel
  have hzero := by decide +kernel
  have hrevive := by rfl
  ⟨⟨hcomplete, hzero, hrevive⟩, normal_evaluate_revive default hcomplete hzero hrevive⟩

end Value

end Latent

import Latent.Proofs.Node.Calls
import Latent.Proofs.Wire.Failures
import Latent.Proofs.Wire.Texts

/-!
# Times of day are not written

`Value.leaves` lists the leaves of a value in the order in which they are written.  Writing goes through
them and fails at the first time of day (`stopsAtFirst_toJson`); no other leaf makes it fail.  In a
well-built value every operand is a field, so a time of day is met wherever it occurs.
-/

namespace Latent

namespace Value

/-! ## Leaves -/

mutual

/-- The leaves of a value, depth first. -/
def leaves : Value → List Value
  | list items => leavesOfItems items
  | map entries => leavesOfEntries entries
  | node _ operands => leavesOfItems operands
  | v => [v]

/-- The leaves of the items, one after the other. -/
def leavesOfItems : List Value → List Value
  | [] => []
  | item :: rest => leaves item ++ leavesOfItems rest

/-- The leaves of what the keys are bound to. -/
def leavesOfEntries : List (String × Value) → List Value
  | [] => []
  | (_, value) :: rest => leaves value ++ leavesOfEntries rest

end

variable {u v : Value} {op : Operator} {operands : List Value}

/-- A leaf has no leaves but itself. -/
theorem leaves_of_isLeaf (h : v.isLeaf) : v.leaves = [v] := by
  cases v with
  | list _ | map _ | node _ _ => cases h
  | _ => rfl

theorem leavesOfItems_eq_flatMap (items : List Value) :
    leavesOfItems items = items.flatMap leaves := by
  induction items with
  | nil => rfl
  | cons item rest ih => rw [leavesOfItems, ih, List.flatMap_cons]

theorem leavesOfEntries_eq_flatMap (entries : Entries Value) :
    leavesOfEntries entries = entries.flatMap fun entry => entry.2.leaves := by
  induction entries with
  | nil => rfl
  | cons entry rest ih => rw [leavesOfEntries, ih, List.flatMap_cons]

/-- The leaves of a list are those of its items, in their order. -/
theorem leaves_list (items : List Value) : (list items).leaves = items.flatMap leaves := by
  rw [leaves, leavesOfItems_eq_flatMap]

/-- The leaves of a map are those of its values, in their order. -/
theorem leaves_map (entries : Entries Value) :
    (map entries).leaves = entries.flatMap fun entry => entry.2.leaves := by
  rw [leaves, leavesOfEntries_eq_flatMap]

/-- With one operand for each field, the leaves of a node are those of its fields, in their order. -/
theorem leaves_node (hlength : operands.length = op.fields.length) :
    (node op operands).leaves = (record op operands).flatMap fun entry => entry.2.leaves := by
  have hoperands : (record op operands).map Prod.snd = operands :=
    List.map_snd_zip (le_of_eq hlength)
  calc (node op operands).leaves
      = operands.flatMap leaves := by rw [leaves, leavesOfItems_eq_flatMap]
    _ = ((record op operands).map Prod.snd).flatMap leaves := by rw [hoperands]
    _ = (record op operands).flatMap fun entry => entry.2.leaves := List.flatMap_map ..

/-! ## Occurrences -/

/-- The value is the whole or somewhere inside: in a list, under a key of a map, or in a field of a node. -/
inductive OccursIn (u : Value) : Value → Prop where
  | self : OccursIn u u
  | item {items : List Value} {v : Value} (hv : v ∈ items) (h : OccursIn u v) : OccursIn u (.list items)
  | entry {entries : Entries Value} {entry : String × Value} (hentry : entry ∈ entries)
      (h : OccursIn u entry.2) : OccursIn u (.map entries)
  | field {op : Operator} {operands : List Value} {entry : String × Value}
      (hentry : entry ∈ record op operands) (h : OccursIn u entry.2) : OccursIn u (.node op operands)

/-- In a leaf nothing occurs but itself. -/
theorem occursIn_leaf_iff (hleaf : v.isLeaf) : u.OccursIn v ↔ u = v := by
  constructor
  · intro h
    cases h with
    | self => rfl
    | item _ _ | entry _ _ | field _ _ => cases hleaf
  · rintro rfl
    exact .self

section

variable (hu : u.isLeaf)

include hu

/-- A leaf occurs in a list if it occurs in an item. -/
theorem occursIn_list_iff {items : List Value} :
    u.OccursIn (list items) ↔ ∃ w ∈ items, u.OccursIn w := by
  constructor
  · intro h
    cases h with
    | self => cases hu
    | item hw h => exact ⟨_, hw, h⟩
  · rintro ⟨w, hw, h⟩
    exact .item hw h

/-- It occurs in a map if it occurs in what a key is bound to. -/
theorem occursIn_map_iff {entries : Entries Value} :
    u.OccursIn (map entries) ↔ ∃ entry ∈ entries, u.OccursIn entry.2 := by
  constructor
  · intro h
    cases h with
    | self => cases hu
    | entry hentry h => exact ⟨_, hentry, h⟩
  · rintro ⟨entry, hentry, h⟩
    exact .entry hentry h

/-- It occurs in a node if it occurs in a field. -/
theorem occursIn_node_iff :
    u.OccursIn (node op operands) ↔ ∃ entry ∈ record op operands, u.OccursIn entry.2 := by
  constructor
  · intro h
    cases h with
    | self => cases hu
    | field hentry h => exact ⟨_, hentry, h⟩
  · rintro ⟨entry, hentry, h⟩
    exact .field hentry h

/-- **The leaves that occur in what is built are listed.** -/
theorem mem_leaves_iff (b : Built fun _ => true) : u ∈ b.value.leaves ↔ u.OccursIn b.value := by
  induction b using Built.induction with
  | leaf v hleaf _ =>
      rw [Built.value_leaf, leaves_of_isLeaf hleaf, occursIn_leaf_iff hleaf, List.mem_singleton]
  | list items _ ih =>
      have hitems : ∀ w ∈ items.map Built.value, u ∈ w.leaves ↔ u.OccursIn w := List.forall_mem_map.2 ih
      rw [Built.value_list, leaves_list, List.mem_flatMap, occursIn_list_iff hu]
      exact exists_congr fun w => and_congr_right (hitems w)
  | map entries _ _ ih =>
      have hentries : ∀ entry ∈ entries.map fun entry => (entry.1, entry.2.value),
          u ∈ entry.2.leaves ↔ u.OccursIn entry.2 := List.forall_mem_map.2 ih
      rw [Built.value_map, leaves_map, List.mem_flatMap, occursIn_map_iff hu]
      exact exists_congr fun entry => and_congr_right (hentries entry)
  | node op operands hsound _ ih =>
      have hoperands : ∀ w ∈ operands.map Built.value, u ∈ w.leaves ↔ u.OccursIn w :=
        List.forall_mem_map.2 ih
      rw [Built.value_node, leaves_node hsound.length, List.mem_flatMap, occursIn_node_iff hu]
      exact exists_congr fun entry => and_congr_right fun hentry =>
        hoperands entry.2 (List.of_mem_zip hentry).2

end

/-! ## Writing -/

/-- The value is a time of day, and this error names it. -/
def FailsAs (u : Value) (e : WireError) : Prop := ∃ t, u = time t ∧ e = .noWireForm t

theorem not_hasWireForm_of_failsAs {e : WireError} (h : u.FailsAs e) : ¬ u.hasWireForm := by
  obtain ⟨t, rfl, -⟩ := h
  exact nofun

/-- Writing goes through leaves. -/
abbrev WritesThrough {α : Type} (leaves : List Value) (x : Except WireError α) : Prop :=
  StopsAtFirst (fun u => u.hasWireForm) FailsAs leaves x

/-- Writing items goes through their leaves, in order. -/
theorem writesThrough_itemsToJson {items : List Value}
    (h : ∀ v ∈ items, WritesThrough v.leaves v.toJson) :
    WritesThrough (leavesOfItems items) (itemsToJson items) := by
  induction items with
  | nil => exact .nil []
  | cons item rest ih =>
      obtain ⟨hitem, hrest⟩ := List.forall_mem_cons.1 h
      rw [leavesOfItems, itemsToJson]
      exact hitem.bind fun tree _ => (ih hrest).map (tree :: ·)

/-- So does writing the values of a map. -/
theorem writesThrough_entriesToJson {entries : Entries Value}
    (h : ∀ entry ∈ entries, WritesThrough entry.2.leaves entry.2.toJson) :
    WritesThrough (leavesOfEntries entries) (entriesToJson entries) := by
  induction entries with
  | nil => exact .nil []
  | cons entry rest ih =>
      obtain ⟨hvalue, hrest⟩ := List.forall_mem_cons.1 h
      rw [leavesOfEntries, entriesToJson]
      exact hvalue.bind fun tree _ => (ih hrest).map ((entry.1, tree) :: ·)

/-- **Writing a value goes through its leaves**, depth first. -/
theorem writesThrough_toJson (v : Value) : WritesThrough v.leaves v.toJson := by
  induction v using Value.induction with
  | leaf v hleaf =>
      rw [leaves_of_isLeaf hleaf]
      cases v with
      | list _ | map _ | node _ _ => cases hleaf
      | time t => exact .single_error ⟨t, rfl, rfl⟩
      | _ => exact .single _ rfl
  | list items ih =>
      rw [leaves, toJson]
      exact (writesThrough_itemsToJson ih).map Json.array
  | map entries ih =>
      rw [leaves, toJson]
      exact (writesThrough_entriesToJson ih).map Json.object
  | node op operands ih =>
      rw [leaves, toJson]
      exact (writesThrough_itemsToJson ih).map (Json.tagged op)

/-- **A well-built value is not written when a time of day occurs in it, and only then.**  The error names
the first one. -/
theorem toJson_failures (hbuilt : WellBuilt v) :
    ((∃ e, v.toJson = .error e) ↔ ∃ t, (time t).OccursIn v) ∧
    ((∃ e, v.encode = .error e) ↔ ∃ t, (time t).OccursIn v) ∧
    ∀ e, v.toJson = .error e ∨ v.encode = .error e → ∃ before t after,
      v.leaves = before ++ time t :: after ∧ (∀ t, time t ∉ before) ∧ e = .noWireForm t := by
  have htree := writesThrough_toJson v
  have htext : WritesThrough v.leaves v.encode := htree.map Json.print
  -- the leaves that have no form are the times of day, wherever they occur
  have hoccurs : (∃ u ∈ v.leaves, ∃ e, u.FailsAs e) ↔ ∃ t, (time t).OccursIn v := by
    constructor
    · rintro ⟨_, hmem, e, t, rfl, -⟩
      exact ⟨t, (mem_leaves_iff rfl ⟨v, hbuilt, all_true v⟩).1 hmem⟩
    · rintro ⟨t, h⟩
      exact ⟨time t, (mem_leaves_iff rfl ⟨v, hbuilt, all_true v⟩).2 h, _, t, rfl, rfl⟩
  have hfirst {α : Type} {e : WireError} (h : WritesThrough v.leaves (.error e : Except WireError α)) :
      ∃ before t after, v.leaves = before ++ time t :: after ∧ (∀ t, time t ∉ before) ∧
        e = .noWireForm t := by
    obtain ⟨before, _, after, hleaves, hbefore, t, rfl, rfl⟩ := h.exists_of_error
    refine ⟨before, t, after, hleaves, fun t hmem => ?_, rfl⟩
    cases hbefore (time t) hmem
  refine ⟨(htree.error_iff fun _ _ => not_hasWireForm_of_failsAs).trans hoccurs,
    (htext.error_iff fun _ _ => not_hasWireForm_of_failsAs).trans hoccurs, ?_⟩
  rintro e (herror | herror)
  · rw [herror] at htree
    exact hfirst htree
  · rw [herror] at htext
    exact hfirst htext

/-- Two times of day, as the start of a date and as a default: the date is written first. -/
theorem toJson_failures_start :
    let early : TimeOfDay := ⟨3600, 0, by decide⟩
    let date := node .date [null, null, null, integer 0, integer 0, integer 0, time early]
    let v := map [("a", list [integer 1, date]), ("b", node .eval [string "x", time .midnight])]
    WellBuilt v ∧ (time .midnight).OccursIn v ∧ (∃ e, v.toJson = .error e) ∧
      v.encode = .error (.noWireForm early) ∧ ∃ before t after,
        v.leaves = before ++ time t :: after ∧ (∀ t, time t ∉ before) ∧
        WireError.noWireForm early = .noWireForm t := by
  intro early date v
  have hbuilt : WellBuilt v := wellBuilt_iff.2 ⟨by decide, by decide⟩
  have hoccurs : (time .midnight).OccursIn v :=
    .entry (List.mem_cons_of_mem _ List.mem_cons_self)
      (.field (List.mem_cons_of_mem _ List.mem_cons_self) .self)
  have hencode : v.encode = .error (.noWireForm early) := rfl
  obtain ⟨htree, -, hfirst⟩ := toJson_failures hbuilt
  exact ⟨hbuilt, hoccurs, htree.2 ⟨_, hoccurs⟩, hencode, hfirst _ (.inr hencode)⟩

end Value

end Latent

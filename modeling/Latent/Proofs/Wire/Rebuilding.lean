import Latent.Proofs.Node.Construction
import Latent.Proofs.Wire.Carries

/-!
# Rebuilding what was written

A value of JSON data and nodes that were built is written and rebuilt as what it was.  All that changes
is the form of some numbers: a binary64 number that equals a whole number of 64 bits comes back as that
number.  The checks of the construction are made again on the changed operands, and none of them sees
the change.
-/

namespace Latent

namespace Value

variable {v : Value}

/-! ## Written and rebuilt -/

/-- No map reads as a record. -/
def isUntagged : Value → Bool
  | map entries => (tag? entries).isNone
  | _ => true

/-- An ordinary leaf is carried to its plain form. -/
theorem carries_plainLeaf {revival : Revival} (hleaf : v.isLeaf) (h : v.isOrdinary) :
    Carries revival v (plainLeaf v) := by
  cases v with
  | null => exact carries_null
  | boolean b => exact carries_boolean b
  | integer i => exact carries_integer i
  | float x => exact carries_float x
  | string s => exact carries_string s
  | list _ | map _ | node _ _ => cases hleaf
  | decimal _ | date _ | dateTime _ | time _ | duration _ => cases h

/-- What is built is carried leaf by leaf, if what the leaves are carried to passes their checks. -/
theorem carries_mapLeaves {f : Value → Value} {p : Value → Bool}
    (hleaf : ∀ v : Value, v.isLeaf → p v → Carries .rebuilding v (f v) ∧ (f v).StandsFor v)
    (b : Built fun v => p v && v.isUntagged) : Carries .rebuilding b.value (b.value.mapLeaves f) := by
  induction b using Built.induction with
  | leaf v hv h =>
      rw [Built.value_leaf, mapLeaves_leaf hv]
      exact (hleaf v hv (Bool.and_eq_true_iff.1 h).1).1
  | list items h ih =>
      rw [Built.value_list, mapLeaves_list]
      exact carries_list (List.forall_mem_map.2 ih)
  | map entries hkeys h ih =>
      rw [Built.value_map, mapLeaves_map]
      exact carries_map (Option.isNone_iff_eq_none.1 (Bool.and_eq_true_iff.1 h).2)
        (List.forall_mem_map.2 ih)
  | node op operands hsound h ih =>
      rw [Built.value_node, mapLeaves_node]
      refine carries_node (List.forall_mem_map.2 ih) ?_
      -- the changed operands are sound, so the record is built from them as they are
      have hchanged : Node.IsSound op ((operands.map Built.value).map (mapLeaves f)) :=
        hsound.map (List.forall_mem_map.2 fun b _ => mapLeaves_standsFor
          (fun v hv h => (hleaf v hv (Bool.and_eq_true_iff.1 h).1).2) b.all)
      exact congrArg (Except.mapError _) (Node.ofRecord_of_isSound hchanged)

/-- What is built of JSON data is carried to its plain form. -/
theorem carries_plain (b : Built fun v => v.isOrdinary && v.isUntagged) :
    Carries .rebuilding b.value b.value.plain :=
  carries_mapLeaves (fun _ hleaf h => ⟨carries_plainLeaf hleaf h, plainLeaf_standsFor hleaf h⟩) b

/-! ## Written again -/

/-- Items that are written like others are written together like them. -/
theorem itemsToJson_map {g : Value → Value} {items : List Value}
    (h : ∀ v ∈ items, (g v).toJson = v.toJson) : itemsToJson (items.map g) = itemsToJson items := by
  induction items with
  | nil => rfl
  | cons item rest ih =>
      rw [List.map_cons, itemsToJson, itemsToJson, h item List.mem_cons_self,
        ih fun v hv => h v (List.mem_cons_of_mem _ hv)]

/-- So are entries. -/
theorem entriesToJson_map {g : Value → Value} {entries : Entries Value}
    (h : ∀ entry ∈ entries, (g entry.2).toJson = entry.2.toJson) :
    entriesToJson (entries.map fun entry => (entry.1, g entry.2)) = entriesToJson entries := by
  induction entries with
  | nil => rfl
  | cons entry rest ih =>
      rw [List.map_cons, entriesToJson, entriesToJson, h entry List.mem_cons_self,
        ih fun e he => h e (List.mem_cons_of_mem _ he)]

/-- A value is written as it was if its leaves are. -/
theorem toJson_mapLeaves {f : Value → Value} {p : Value → Bool}
    (hleaf : ∀ v : Value, v.isLeaf → p v → (f v).toJson = v.toJson) (h : v.all p) :
    (v.mapLeaves f).toJson = v.toJson := by
  induction v, h using all_induction with
  | leaf v h hv =>
      rw [mapLeaves_leaf hv]
      exact hleaf v hv (holds_of_all h)
  | list items _ ih => rw [mapLeaves_list, toJson, toJson, itemsToJson_map ih]
  | map entries _ ih => rw [mapLeaves_map, toJson, toJson, entriesToJson_map ih]
  | node op operands _ ih => rw [mapLeaves_node, toJson, toJson, itemsToJson_map ih]

/-- A number in its plain form is written as it was. -/
theorem toJson_ofBinary64 {x : Binary64} (h : x.isFinite = true) :
    (ofBinary64 x).toJson = .ok (.ofFloat x) := by
  rw [ofBinary64_finite h]
  cases hx : x.toInt64? with
  | none => rfl
  | some i =>
      obtain ⟨j, hj, hi⟩ := Option.bind_eq_some_iff.1 hx
      obtain rfl := toInt_of_int64? hi
      simp only [toJson, Json.ofFloat, hj, dif_pos (inInt64_toInt i).isWhole]
      rfl

/-- An ordinary leaf in its plain form is written as it was. -/
theorem toJson_plainLeaf (h : v.isOrdinary) : (plainLeaf v).toJson = v.toJson := by
  cases v with
  | float x => exact toJson_ofBinary64 h
  | decimal _ | date _ | dateTime _ | time _ | duration _ => cases h
  | _ => rfl

/-- **What was written is rebuilt.**  The result equals the value; it is the value with its numbers in
plain form, so every list, map and node is where it was, and no node was added. -/
theorem revive_rebuilding_toJson (hbuilt : WellBuilt v) (h : v.all isOrdinary)
    (htag : v.all isUntagged) :
    ∃ tree w, v.toJson = .ok tree ∧ revive .rebuilding tree = .ok w ∧ w = v.plain ∧
      w.same v = true := by
  obtain ⟨tree, htree, hrevive⟩ := carries_plain ⟨v, hbuilt, all_and h htag⟩
  exact ⟨tree, v.plain, htree, hrevive, rfl, plain_same ⟨v, hbuilt, h⟩⟩

/-- A look-up among numbers compared with a number, under a condition that was coerced when the node
was built. -/
theorem revive_rebuilding_toJson_less :
    let get := node .get [map [("k", float 2)], string "k", integer 0]
    let v := list [node .less [get, float 2, node .bool [string "x"]], map [(tagKey, string "Other")]]
    (WellBuilt v ∧ v.all isOrdinary ∧ v.all isUntagged) ∧
      ∃ tree w, v.toJson = .ok tree ∧ revive .rebuilding tree = .ok w ∧ w = v.plain ∧
        w.same v = true := by
  intro get v
  have hmap : WellBuilt (map [("k", float 2)]) :=
    .map _ (by decide) (List.forall_mem_cons.2 ⟨.leaf (float 2) rfl, by simp⟩)
  have hget : WellBuilt get := by
    refine .node .get [map [("k", float 2)], string "k", integer 0] _ rfl ?_ rfl
    exact List.forall_mem_cons.2 ⟨hmap, List.forall_mem_cons.2 ⟨.leaf _ rfl,
      List.forall_mem_cons.2 ⟨.leaf _ rfl, by simp⟩⟩⟩
  have hless : WellBuilt (node .less [get, float 2, node .bool [string "x"]]) := by
    refine .node .less [get, float 2, string "x"] _ rfl ?_ rfl
    exact List.forall_mem_cons.2 ⟨hget, List.forall_mem_cons.2 ⟨.leaf _ rfl,
      List.forall_mem_cons.2 ⟨.leaf _ rfl, by simp⟩⟩⟩
  have hother : WellBuilt (map [(tagKey, string "Other")]) :=
    .map _ (by decide) (List.forall_mem_cons.2 ⟨.leaf (string "Other") rfl, by simp⟩)
  have hbuilt : WellBuilt v :=
    .list _ (List.forall_mem_cons.2 ⟨hless, List.forall_mem_cons.2 ⟨hother, by simp⟩⟩)
  have hordinary : v.all isOrdinary := by decide +kernel
  have htag : v.all isUntagged := by decide
  exact ⟨⟨hbuilt, hordinary, htag⟩, revive_rebuilding_toJson hbuilt hordinary htag⟩

end Value

end Latent

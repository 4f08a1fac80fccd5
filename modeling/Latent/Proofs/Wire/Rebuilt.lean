import Latent.Proofs.Json.Parts
import Latent.Proofs.Node.Rules
import Latent.Proofs.Wire.Rebuilding

/-!
# What is rebuilt from a tree

Nothing is asked of a tree, but not every value is rebuilt from one.  Its leaves are those of JSON, its
nodes obey the rules of construction, and no map of it reads as a record; its maps bind no key twice
when the objects of the tree do not.  All of this follows from one induction over the tree
(`all_rebuilt`): a condition that construction keeps holds of every part, if it holds of the maps that
are read from objects without a tag.
-/

namespace Latent

namespace Value

/-! ## Leaves and tags -/

/-- The value of a number is a leaf. -/
theorem isLeaf_toValue (n : Json.Number) : n.toValue.isLeaf := by
  rw [Json.Number.toValue]
  cases n.toInt64? <;> rfl

/-- The numbers of a tree are ordinary. -/
theorem isOrdinary_toValue (n : Json.Number) : n.toValue.isOrdinary := by
  rw [Json.Number.toValue]
  cases n.toInt64? with
  | some i => rfl
  | none => exact isFinite_toBinary64 n

/-- A number does not name an operator. -/
theorem operator?_toValue (n : Json.Number) : n.toValue.operator? = none := by
  rw [Json.Number.toValue]
  cases n.toInt64? <;> rfl

/-- A tree without parts is rebuilt as an ordinary leaf. -/
theorem isLeaf_rebuilt {tree : Json} {v : Value} (hleaf : tree.isLeaf)
    (h : revive .rebuilding tree = .ok v) : v.isLeaf ∧ v.isOrdinary := by
  cases tree with
  | array _ | object _ => cases hleaf
  | number n =>
      cases h
      exact ⟨isLeaf_toValue n, isOrdinary_toValue n⟩
  | null | boolean _ | string _ =>
      cases h
      exact ⟨rfl, rfl⟩

/-- What an object is rebuilt as: a map when it has no tag, and else a node made of its record. -/
theorem rebuilt_object {entries : Entries Json} {v : Value}
    (h : revive .rebuilding (.object entries) = .ok v) :
    ∃ values, reviveEntries .rebuilding entries = .ok values ∧
      (Json.tag? entries = none ∧ v = map values ∨
        ∃ op operands, v = node op operands ∧
          Node.ofRecord op (Entries.remove tagKey values) = .ok (node op operands)) := by
  rw [revive] at h
  obtain ⟨values, hvalues, h⟩ := exists_of_bind_eq_ok h
  refine ⟨values, hvalues, ?_⟩
  cases htag : Json.tag? entries with
  | none =>
      rw [htag] at h
      cases h
      exact .inl ⟨rfl, rfl⟩
  | some op =>
      rw [htag] at h
      obtain ⟨operands, hv, hbuild⟩ := exists_of_finish h
      exact .inr ⟨op, operands, hv, hbuild⟩

/-- Only a text is rebuilt as a text. -/
theorem operator?_rebuilt {tree : Json} {v : Value} (h : revive .rebuilding tree = .ok v) :
    v.operator? = tree.operator? := by
  cases tree with
  | number n =>
      cases h
      exact operator?_toValue n
  | array items =>
      obtain ⟨values, _, h⟩ := exists_of_bind_eq_ok h
      cases h
      rfl
  | object entries =>
      obtain ⟨values, _, ⟨_, rfl⟩ | ⟨op, operands, rfl, _⟩⟩ := rebuilt_object h
      · rfl
      · rfl
  | null | boolean _ | string _ =>
      cases h
      rfl

/-- The rebuilt entries read as a record of the operator that the entries are tagged with. -/
theorem tag?_rebuilt {entries : Entries Json} {values : Entries Value}
    (h : reviveEntries .rebuilding entries = .ok values) : tag? values = Json.tag? entries := by
  induction entries generalizing values with
  | nil =>
      cases h
      rfl
  | cons entry rest ih =>
      obtain ⟨v, others, rfl, hv, hothers⟩ := exists_of_reviveEntries_cons h
      rw [tag?_cons, Json.tag?_cons, operator?_rebuilt hv, ih hothers]

/-! ## Every part -/

/-- A condition that construction keeps holds of every part of what is rebuilt, if it holds of the maps
that objects without a tag are rebuilt as. -/
theorem all_rebuilt {p : Value → Bool} {q : Json → Bool} (hp : KeptByBuilding p)
    (hmap : ∀ entries values, q (.object entries) → Json.tag? entries = none →
      reviveEntries .rebuilding entries = .ok values → p (map values))
    {tree : Json} (hq : tree.all q) {v : Value} (h : revive .rebuilding tree = .ok v) : v.all p := by
  induction tree, hq using Json.all_induction generalizing v with
  | leaf tree _ htree =>
      obtain ⟨hleaf, hordinary⟩ := isLeaf_rebuilt htree h
      exact all_of_isLeaf hleaf (hp.leaf v hleaf hordinary)
  | array items _ ih =>
      rw [revive] at h
      obtain ⟨values, hvalues, h⟩ := exists_of_bind_eq_ok h
      cases h
      refine all_list.2 ⟨hp.list values, fun v hv => ?_⟩
      obtain ⟨tree, htree, hrevive⟩ := exists_of_mem_reviveItems hvalues hv
      exact ih tree htree hrevive
  | object entries hq ih =>
      obtain ⟨values, hvalues, hv⟩ := rebuilt_object h
      have hparts : ∀ entry ∈ values, entry.2.all p := by
        intro entry hentry
        obtain ⟨tree, htree, hrevive⟩ := exists_of_mem_reviveEntries hvalues hentry
        exact ih (entry.1, tree) htree hrevive
      -- an object is rebuilt as a map, or as the node of its record
      rcases hv with ⟨htag, rfl⟩ | ⟨op, operands, rfl, hbuild⟩
      · exact all_map.2 ⟨hmap entries values (Json.holds_of_all hq) htag hvalues, hparts⟩
      · -- the tag is no field of the record
        exact Node.all_of_ofRecord hp
          (fun entry hentry => hparts entry (Entries.mem_of_mem_remove hentry)) hbuild

section

variable {tree : Json} {v : Value} (h : revive .rebuilding tree = .ok v)

include h

/-- Every node that is rebuilt obeys the rules of its operator. -/
theorem obeysRules_rebuilt : v.all obeysRules :=
  all_rebuilt keptByBuilding_obeysRules (fun _ _ _ _ _ => rfl) (Json.all_true tree) h

/-- All leaves that are rebuilt are ordinary. -/
theorem isOrdinary_rebuilt : v.all isOrdinary :=
  all_rebuilt keptByBuilding_isOrdinary (fun _ _ _ _ _ => rfl) (Json.all_true tree) h

/-- An object that would be rebuilt as a record of a map was one. -/
theorem isUntagged_rebuilt : v.all isUntagged := by
  have hkept : KeptByBuilding isUntagged := by
    refine ⟨fun v hleaf _ => ?_, fun _ => rfl, fun _ _ _ => rfl⟩
    cases v with
    | map _ => cases hleaf
    | _ => rfl
  refine all_rebuilt hkept (fun entries values _ htag hvalues => ?_) (Json.all_true tree) h
  rw [isUntagged, tag?_rebuilt hvalues, htag]
  rfl

/-- The keys of maps stay distinct. -/
theorem hasDistinctKeys_rebuilt (hkeys : tree.all Json.hasDistinctKeys) : v.all hasDistinctKeys := by
  refine all_rebuilt keptByBuilding_hasDistinctKeys (fun entries values hobject _ hvalues => ?_) hkeys h
  have hdistinct : Entries.Distinct entries := of_decide_eq_true hobject
  unfold Entries.Distinct at hdistinct
  rw [← keys_reviveEntries hvalues] at hdistinct
  exact decide_eq_true hdistinct

/-- **What is rebuilt from a tree is well built.** -/
theorem wellBuilt_rebuilt (hkeys : tree.all Json.hasDistinctKeys) : WellBuilt v :=
  wellBuilt_iff.2 ⟨obeysRules_rebuilt h, hasDistinctKeys_rebuilt h hkeys⟩

end

end Value

end Latent

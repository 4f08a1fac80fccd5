import Latent.Proofs.Entries.Reordered
import Latent.Proofs.Evaluate.Congruence
import Latent.Proofs.Node.Correspondence
import Latent.Proofs.Wire.Failures
import Latent.Proofs.Wire.Rebuilt

/-!
# The order of keys

Trees that differ in the order of entries alone, the place of a tag included, are revived as values that
do so, or neither is.  Entries are revived one after another, so in another order the result is a
permutation; records are finished by what is found under each key, and neither operators nor the checks of
construction look at more of it than what corresponding values share (`IgnoresOrder`).
-/

namespace Latent

/-! ## Trees and values in another order -/

/-- The trees are equal but for the order of entries, at any depth. -/
inductive Json.Reordered : Json → Json → Prop where
  | leaf {tree : Json} (h : tree.isLeaf) : Json.Reordered tree tree
  | array {items others : List Json} (h : List.Forall₂ Json.Reordered items others) :
      Json.Reordered (.array items) (.array others)
  | object {entries middle others : Entries Json} (hperm : entries.Perm middle)
      (hkeys : Entries.keys middle = Entries.keys others)
      (h : List.Forall₂ Json.Reordered (middle.map Prod.snd) (others.map Prod.snd)) :
      Json.Reordered (.object entries) (.object others)

/-- The values are equal but for the order of entries, at any depth.  The operands of a node keep their
places. -/
inductive Value.Reordered : Value → Value → Prop where
  | leaf {v : Value} (h : v.isLeaf) : Value.Reordered v v
  | list {items others : List Value} (h : List.Forall₂ Value.Reordered items others) :
      Value.Reordered (.list items) (.list others)
  | map {entries middle others : Entries Value} (hperm : entries.Perm middle)
      (hkeys : Entries.keys middle = Entries.keys others)
      (h : List.Forall₂ Value.Reordered (middle.map Prod.snd) (others.map Prod.snd)) :
      Value.Reordered (.map entries) (.map others)
  | node (op : Operator) {operands others : List Value}
      (h : List.Forall₂ Value.Reordered operands others) :
      Value.Reordered (.node op operands) (.node op others)

namespace Json.Reordered

variable {tree other : Json} {entries others : Entries Json}

/-- A reordered tree names the same operator. -/
theorem operator?_eq (h : tree.Reordered other) : tree.operator? = other.operator? := by
  cases h with
  | leaf _ | array _ | object _ _ _ => rfl

/-- A tag is found wherever it stands. -/
theorem tag?_eq (hkeys : Entries.Distinct entries) (h : Entries.Reordered Reordered entries others) :
    tag? entries = tag? others := by
  rw [Json.tag?_eq, Json.tag?_eq]
  exact bind_eq_of_rel (fun _ _ => operator?_eq) (h.rel_find? hkeys tagKey)

end Json.Reordered

namespace Value

variable {v w : Value}

/-- Equal leaves are not told apart. -/
theorem leafViews_eq : LeafViews Eq where
  refl _ _ := rfl
  isTruthy _ _ h := congrArg _ h
  toText? _ _ h := congrArg _ h
  length? _ _ h := congrArg _ h
  rank? _ _ h := congrArg (fun v => v.toBinary64?.map Binary64.rank?) h
  ordinal? _ _ h := congrArg (fun v => v.ordinal?.map Binary64.rank?) h
  startDate _ _ _ h := congrArg _ h
  startTime _ _ _ h := congrArg _ h
  same _ _ _ _ _ _ _ _ h h' := congrArg₂ _ h h'
  looselyEqual _ _ _ _ _ _ _ _ h h' := congrArg₂ _ h h'

/-- What is built alike from equal leaves differs in the order of entries alone. -/
theorem reordered_of_corresponds (h : Corresponds Eq v w) : v.Reordered w := by
  refine Corresponds.induction ?_ ?_ ?_ ?_ h
  · rintro v _ hleaf _ rfl
    exact .leaf hleaf
  · intro items others ih
    exact .list (ih.imp fun _ _ h => h.1)
  · intro entries others hkeys hothers ih
    obtain ⟨middle, hperm, hkeys, hvalues⟩ := Entries.reordered_of_rel hkeys hothers ih
    exact .map hperm hkeys (hvalues.imp fun _ _ h => h.1)
  · intro op operands others ih
    exact .node op (ih.imp fun _ _ h => h.1)

/-! ## Entries one after another -/

section

variable {revival : Revival} {r : Value → Value → Prop}

/-- Items concur if they do so one by one. -/
theorem concur_reviveItems {trees others : List Json}
    (h : List.Forall₂ (fun tree other => Concur r (revive revival tree) (revive revival other))
      trees others) :
    Concur (List.Forall₂ r) (reviveItems revival trees) (reviveItems revival others) := by
  induction h with
  | nil => exact .ok .nil
  | cons htree _ ih =>
      rw [reviveItems, reviveItems]
      exact htree.bind fun _ _ _ _ hr => ih.bind fun _ _ _ _ hrest => .ok (.cons hr hrest)

/-- Entries are revived in any order, as values in that order. -/
theorem concur_reviveEntries_perm {entries others : Entries Json} (h : entries.Perm others) :
    Concur List.Perm (reviveEntries revival entries) (reviveEntries revival others) := by
  induction h with
  | nil => exact .ok .nil
  | cons entry _ ih =>
      rw [reviveEntries, reviveEntries]
      cases revive revival entry.2 with
      | error e => exact .error e e
      | ok v => exact ih.bind fun _ _ _ _ hrest => .ok (hrest.cons _)
  -- two entries that change places may both fail; then the errors differ
  | swap first second rest =>
      simp only [reviveEntries]
      cases revive revival first.2 with
      | error e =>
          cases revive revival second.2 with
          | error e' => exact .error e' e
          | ok _ => exact .error e e
      | ok v =>
          cases revive revival second.2 with
          | error e => exact .error e e
          | ok w =>
              cases reviveEntries revival rest with
              | error e => exact .error e e
              | ok values => exact .ok (.swap _ _ values)
  | trans _ _ ih ih' => exact ih.trans ih' fun _ _ _ => List.Perm.trans

/-- Entries under the same keys are revived value by value. -/
theorem concur_reviveEntries_keys {entries others : Entries Json}
    (hkeys : Entries.keys entries = Entries.keys others)
    (h : List.Forall₂ (fun tree other => Concur r (revive revival tree) (revive revival other))
      (entries.map Prod.snd) (others.map Prod.snd)) :
    Concur (fun values values' => Entries.keys values = Entries.keys values' ∧
        List.Forall₂ r (values.map Prod.snd) (values'.map Prod.snd))
      (reviveEntries revival entries) (reviveEntries revival others) := by
  induction entries generalizing others with
  | nil =>
      cases others with
      | nil => exact .ok ⟨rfl, .nil⟩
      | cons _ _ => cases hkeys
  | cons entry rest ih =>
      cases others with
      | nil => cases hkeys
      | cons other others =>
          obtain ⟨hkey, hkeys⟩ := List.cons.inj hkeys
          obtain ⟨htree, htrees⟩ := List.forall₂_cons.1 h
          rw [reviveEntries, reviveEntries]
          refine htree.bind fun _ _ _ _ hr => (ih hkeys htrees).bind fun _ _ _ _ hrest => ?_
          exact .ok ⟨congrArg₂ List.cons hkey hrest.1, .cons hr hrest.2⟩

/-- **Reordered entries are revived as reordered entries.** -/
theorem concur_reviveEntries {entries others : Entries Json}
    (h : Entries.Reordered Json.Reordered entries others)
    (ih : ∀ entry ∈ entries, ∀ {other}, entry.2.Reordered other →
      Concur r (revive revival entry.2) (revive revival other)) :
    Concur (Entries.Reordered r) (reviveEntries revival entries) (reviveEntries revival others) := by
  obtain ⟨middle, hperm, hkeys, hvalues⟩ := h
  have hmiddle : ∀ tree ∈ middle.map Prod.snd, ∀ {other}, tree.Reordered other →
      Concur r (revive revival tree) (revive revival other) :=
    List.forall_mem_map.2 fun entry hentry => ih entry (hperm.mem_iff.2 hentry)
  have hconcur := concur_reviveEntries_keys hkeys (forall₂_imp_of_mem hvalues hmiddle)
  refine (concur_reviveEntries_perm hperm).trans hconcur fun values values' others hperm h => ?_
  exact ⟨values', hperm, h.1, h.2⟩

end

/-! ## Records -/

/-- What becomes of a record hangs on what is found under each key. -/
def IgnoresOrder (revival : Revival) : Prop :=
  ∀ (op : Operator) (fields others : Fields),
    (∀ key, Option.Rel (Corresponds Eq) (Entries.find? key fields) (Entries.find? key others)) →
    Concur (Corresponds Eq) (revival.finish op fields) (revival.finish op others)

/-- Corresponding values are one key. -/
theorem asKey?_eq (h : Corresponds Eq v w) : v.asKey? = w.asKey? :=
  h.view (fun _ _ heq => congrArg _ heq) (fun _ _ _ => rfl) (fun _ _ _ => rfl) fun _ _ _ => rfl

/-- Evaluating a record does not depend on the order of its fields. -/
theorem ignoresOrder_evaluating {scope : Scope}
    (hscope : (map scope.bindings).all hasDistinctKeys) : IgnoresOrder (.evaluating scope) := by
  intro op fields others h
  have hvalue (key : String) : Corresponds Eq (fields.value key) (others.value key) :=
    rel_getD (h key) (.leaf rfl rfl rfl)
  refine .ok (scope.apply_corresponds leafViews_eq hscope hvalue fun _ entries hmap => ?_)
  -- equal leaves spell one key, `-0` and `0` included
  rw [hmap]
  exact holds_map_congr (asKey?_eq (hvalue "k"))

/-- Nor does rebuilding it. -/
theorem ignoresOrder_rebuilding : IgnoresOrder .rebuilding := by
  intro op fields others h
  exact (Node.concur_ofRecord op h).mapError _ _

/-! ## Trees -/

/-- **Reordered trees are revived as corresponding values**, if records are. -/
theorem concur_revive {revival : Revival} (hrevival : IgnoresOrder revival) {tree other : Json}
    (hkeys : tree.all Json.hasDistinctKeys) (h : tree.Reordered other) :
    Concur (Corresponds Eq) (revive revival tree) (revive revival other) := by
  induction tree, hkeys using Json.all_induction generalizing other with
  | leaf tree _ hleaf =>
      cases h with
      | array _ | object _ _ _ => cases hleaf
      | leaf _ =>
          cases tree with
          | array _ | object _ => cases hleaf
          | number n => exact .ok (.leaf (isLeaf_toValue n) (isLeaf_toValue n) rfl)
          | null | boolean _ | string _ => exact .ok (.leaf rfl rfl rfl)
  | array items _ ih =>
      cases h with
      | leaf hleaf => cases hleaf
      | array h =>
          have hrevived := concur_reviveItems (forall₂_imp_of_mem h fun tree hmem _ h => ih tree hmem h)
          rw [revive, revive]
          exact hrevived.bind fun _ _ _ _ hvalues => .ok (.list hvalues)
  | object entries hkeys ih =>
      cases h with
      | leaf hleaf => cases hleaf
      | object hperm hmiddle h =>
          have hdistinct : Entries.Distinct entries := of_decide_eq_true (Json.holds_of_all hkeys)
          have hreordered : Entries.Reordered Json.Reordered entries _ := ⟨_, hperm, hmiddle, h⟩
          have hrevived := concur_reviveEntries hreordered fun entry hentry _ h => ih entry hentry h
          -- both objects have one tag or none, and it is no field of the record
          rw [revive, revive, Json.Reordered.tag?_eq hdistinct hreordered]
          refine hrevived.bind fun values values' hvalues _ h => ?_
          have hvalueKeys : Entries.Distinct values := by
            unfold Entries.Distinct
            rwa [keys_reviveEntries hvalues]
          obtain ⟨hothers, hfound⟩ := (Entries.reordered_iff hvalueKeys).1 h
          split
          · exact hrevival _ _ _ (Entries.rel_find?_remove hvalueKeys hothers hfound tagKey)
          · exact .ok (.map hvalueKeys hothers h.length_eq hfound)

/-- **The order of keys does not matter**, for trees and variables that bind no key twice.  Evaluating trees
that differ in it gives values that differ in it alone, and so does rebuilding them, unless neither is
rebuilt. -/
theorem revive_reordered {tree other : Json} (hkeys : tree.all Json.hasDistinctKeys)
    (h : tree.Reordered other) :
    (∀ scope : Scope, (map scope.bindings).all hasDistinctKeys → ∃ v w,
      revive (.evaluating scope) tree = .ok v ∧ revive (.evaluating scope) other = .ok w ∧
        v.Reordered w) ∧
    Concur Value.Reordered (revive .rebuilding tree) (revive .rebuilding other) := by
  refine ⟨fun scope hscope => ?_, ?_⟩
  · obtain ⟨v, hv⟩ := exists_revive_evaluating scope tree
    have hconcur := concur_revive (ignoresOrder_evaluating hscope) hkeys h
    obtain ⟨w, hw, hcorresponds⟩ := hconcur.exists_of_ok hv
    exact ⟨v, w, hv, hw, reordered_of_corresponds hcorresponds⟩
  · exact (concur_revive ignoresOrder_rebuilding hkeys h).imp fun _ _ => reordered_of_corresponds

/-- Entries change places in three objects; in one of them a tag does. -/
theorem revive_reordered_get :
    let scope : Scope := ⟨[("a", list [string "b"])], default⟩
    let found : Json := .object [("a", .ofInt64 1), ("b", .null)]
    let found' : Json := .object [("b", .null), ("a", .ofInt64 1)]
    let get : Json := .object [("k", .string "a"), (tagKey, .string "Get"), ("v", found)]
    let get' : Json := .object [(tagKey, .string "Get"), ("k", .string "a"), ("v", found')]
    let tree : Json := .object [("x", get), ("y", found)]
    let other : Json := .object [("y", found'), ("x", get')]
    (tree.all Json.hasDistinctKeys ∧ tree.Reordered other ∧
      (map scope.bindings).all hasDistinctKeys) ∧
    (∃ v w, revive (.evaluating scope) tree = .ok v ∧ revive (.evaluating scope) other = .ok w ∧
      v.Reordered w) ∧
    Concur Value.Reordered (revive .rebuilding tree) (revive .rebuilding other) := by
  intro scope found found' get get' tree other
  have hkeys : tree.all Json.hasDistinctKeys := by decide
  have hscope : (map scope.bindings).all hasDistinctKeys := by decide
  have hfound : found.Reordered found' :=
    .object (.swap _ _ _) rfl (.cons (.leaf rfl) (.cons (.leaf rfl) .nil))
  have hget : get.Reordered get' :=
    .object (.swap _ _ _) rfl (.cons (.leaf rfl) (.cons (.leaf rfl) (.cons hfound .nil)))
  have htree : tree.Reordered other :=
    .object (.swap _ _ _) rfl (.cons hfound (.cons hget .nil))
  obtain ⟨hevaluating, hrebuilding⟩ := revive_reordered hkeys htree
  exact ⟨⟨hkeys, htree, hscope⟩, hevaluating scope hscope, hrebuilding⟩

end Value

end Latent

import Latent.Proofs.Evaluate.Operators
import Latent.Proofs.Found
import Latent.Proofs.Node.Rules
import Latent.Proofs.Value.Settled

/-!
# Corresponding values

Two values correspond when they are built alike from related leaves, but for the order of the entries
of their maps.  What does not tell related leaves apart, and does not look at the order of entries, does
not tell corresponding values apart.  `LeafViews` lists what is asked of the leaves: with it,
corresponding values are equally true, of one length and one rank, and equal to the same values, in
either sense.
-/

namespace Latent

namespace Value

variable {related : Value → Value → Prop}

/-! ## Correspondence -/

/-- The values are built alike from related leaves, but for the order of entries.  No key is bound
twice. -/
inductive Corresponds (related : Value → Value → Prop) : Value → Value → Prop where
  | leaf {v w : Value} (hv : v.isLeaf) (hw : w.isLeaf) (h : related v w) : Corresponds related v w
  | list {items others : List Value} (h : List.Forall₂ (Corresponds related) items others) :
      Corresponds related (.list items) (.list others)
  | map {entries others : Entries Value} (hkeys : Entries.Distinct entries)
      (hothers : Entries.Distinct others) (hlength : entries.length = others.length)
      (h : ∀ key, Option.Rel (Corresponds related) (Entries.find? key entries)
        (Entries.find? key others)) : Corresponds related (.map entries) (.map others)
  | node (op : Operator) {operands others : List Value}
      (h : List.Forall₂ (Corresponds related) operands others) :
      Corresponds related (.node op operands) (.node op others)

/-- A value that binds no key twice corresponds to itself. -/
theorem Corresponds.refl (hrefl : ∀ v : Value, v.isLeaf → related v v) {v : Value}
    (hkeys : v.all hasDistinctKeys) : Corresponds related v v := by
  induction v, hkeys using all_induction with
  | leaf v _ hleaf => exact .leaf hleaf hleaf (hrefl v hleaf)
  | list items _ ih => exact .list (List.forall₂_same.2 ih)
  | map entries hkeys ih =>
      have hdistinct : Entries.Distinct entries := of_decide_eq_true (holds_of_all hkeys)
      refine .map hdistinct hdistinct rfl fun key => ?_
      cases hfind : Entries.find? key entries with
      | none => exact .none
      | some v => exact .some (ih (key, v) (Entries.mem_of_find? hfind))
  | node op operands _ ih => exact .node op (List.forall₂_same.2 ih)

/-- What holds of related leaves, and of corresponding values as soon as it holds of their parts, holds of all
corresponding values. -/
@[elab_as_elim]
theorem Corresponds.induction {motive : Value → Value → Prop}
    (leaf : ∀ v w : Value, v.isLeaf → w.isLeaf → related v w → motive v w)
    (list : ∀ items others : List Value,
      List.Forall₂ (fun v w => motive v w ∧ Corresponds related v w) items others →
      motive (.list items) (.list others))
    (map : ∀ entries others : Entries Value, Entries.Distinct entries → Entries.Distinct others →
      (∀ key, Option.Rel (fun v w => motive v w ∧ Corresponds related v w)
        (Entries.find? key entries) (Entries.find? key others)) →
      motive (.map entries) (.map others))
    (node : ∀ (op : Operator) (operands others : List Value),
      List.Forall₂ (fun v w => motive v w ∧ Corresponds related v w) operands others →
      motive (.node op operands) (.node op others)) {v w : Value} (h : Corresponds related v w) :
    motive v w := by
  induction v using Value.induction generalizing w with
  | leaf v hleaf =>
      cases h with
      | leaf _ hw h => exact leaf v w hleaf hw h
      | list _ | map _ _ _ _ | node _ _ => cases hleaf
  | list items ih =>
      cases h with
      | leaf hleaf _ _ => cases hleaf
      | list h => exact list _ _ (forall₂_imp_of_mem h fun v hv _ h => ⟨ih v hv h, h⟩)
  | map entries ih =>
      cases h with
      | leaf hleaf _ _ => cases hleaf
      | map hkeys hothers _ h =>
          refine map _ _ hkeys hothers fun key => rel_imp (fun v w hv _ h => ?_) (h key)
          exact ⟨ih (key, v) (Entries.mem_of_find? hv) h, h⟩
  | node op operands ih =>
      cases h with
      | leaf hleaf _ _ => cases hleaf
      | node _ h => exact node op _ _ (forall₂_imp_of_mem h fun v hv _ h => ⟨ih v hv h, h⟩)

/-- A condition holds of every part of a value if another one, which leaves hand on to related leaves, holds
of every part of a corresponding value. -/
theorem Corresponds.all {p q : Value → Bool}
    (hleaf : ∀ v w : Value, v.isLeaf → related v w → q w → p v) (hlist : ∀ items, p (.list items))
    (hmap : ∀ entries, Entries.Distinct entries → p (.map entries))
    (hnode : ∀ op operands, p (.node op operands)) {v w : Value} (h : Corresponds related v w)
    (hw : w.all q) : v.all p := by
  have hitems {items others : List Value}
      (h : List.Forall₂ (fun v w => (w.all q → v.all p) ∧ Corresponds related v w) items others)
      (hothers : ∀ w ∈ others, w.all q) : ∀ v ∈ items, v.all p := by
    induction h with
    | nil => exact fun _ hmem => absurd hmem List.not_mem_nil
    | cons hfirst _ ih =>
        obtain ⟨hother, hothers⟩ := List.forall_mem_cons.1 hothers
        exact List.forall_mem_cons.2 ⟨hfirst.1 hother, ih hothers⟩
  -- on the correspondence, with the condition on the other side in the motive
  revert hw
  refine Corresponds.induction (motive := fun v w => w.all q → v.all p) ?_ ?_ ?_ ?_ h
  · intro v w hv _ h hw
    exact all_of_isLeaf hv (hleaf v w hv h (holds_of_all hw))
  · intro items others ih hw
    exact all_list.2 ⟨hlist items, hitems ih (all_list.1 hw).2⟩
  · intro entries others hkeys _ ih hw
    refine all_map.2 ⟨hmap entries hkeys, fun entry hentry => ?_⟩
    obtain ⟨other, hother, himp, _⟩ := exists_of_rel (ih entry.1) (Entries.find?_of_mem hkeys hentry)
    exact himp ((all_map.1 hw).2 _ (Entries.mem_of_find? hother))
  · intro op operands others ih hw
    exact all_node.2 ⟨hnode op operands, hitems ih (all_node.1 hw).2⟩

/-- A view that does not look into parts is the same for corresponding values if it is for related
leaves. -/
theorem Corresponds.view {α : Type} {f : Value → α} (hleaf : ∀ v w, related v w → f v = f w)
    (hlist : ∀ items others, items.length = others.length → f (.list items) = f (.list others))
    (hmap : ∀ entries others, entries.length = others.length → f (.map entries) = f (.map others))
    (hnode : ∀ op operands others, f (.node op operands) = f (.node op others)) {v w : Value}
    (h : Corresponds related v w) : f v = f w := by
  cases h with
  | leaf _ _ h => exact hleaf _ _ h
  | list h => exact hlist _ _ h.length_eq
  | map _ _ hlength _ => exact hmap _ _ hlength
  | node op h => exact hnode op _ _

/-! ## What is asked of leaves -/

/-- Related leaves are not told apart: numbers are looked at through their ranks. -/
structure LeafViews (related : Value → Value → Prop) : Prop where
  refl : ∀ v : Value, v.isLeaf → related v v
  isTruthy : ∀ v w, related v w → v.isTruthy = w.isTruthy
  toText? : ∀ v w, related v w → v.toText? = w.toText?
  length? : ∀ v w, related v w → v.length? = w.length?
  rank? : ∀ v w, related v w → v.toBinary64?.map Binary64.rank? = w.toBinary64?.map Binary64.rank?
  ordinal? : ∀ v w, related v w → v.ordinal?.map Binary64.rank? = w.ordinal?.map Binary64.rank?
  startDate : ∀ (scope : Scope) v w, related v w → scope.startDate v = scope.startDate w
  startTime : ∀ (scope : Scope) v w, related v w → scope.startTime v = scope.startTime w
  same : ∀ v v' w w' : Value, v.isLeaf → v'.isLeaf → w.isLeaf → w'.isLeaf →
    related v v' → related w w' → v.same w = v'.same w'
  looselyEqual : ∀ v v' w w' : Value, v.isLeaf → v'.isLeaf → w.isLeaf → w'.isLeaf →
    related v v' → related w w' → v.looselyEqualLeaves w = v'.looselyEqualLeaves w'

namespace Corresponds

variable (hviews : LeafViews related) {v w : Value} (h : Corresponds related v w)

include hviews h

/-- Corresponding values are truthy alike. -/
theorem isTruthy : v.isTruthy = w.isTruthy := by
  have hempty {α : Type} (as bs : List α) (hlength : as.length = bs.length) :
      (!as.isEmpty) = !bs.isEmpty := by
    cases as <;> cases bs <;> first | rfl | cases hlength
  exact h.view hviews.isTruthy hempty hempty fun _ _ _ => rfl

/-- They are the same text, if one of them is a text. -/
theorem toText? : v.toText? = w.toText? :=
  h.view hviews.toText? (fun _ _ _ => rfl) (fun _ _ _ => rfl) fun _ _ _ => rfl

theorem length? : v.length? = w.length? :=
  h.view hviews.length? (fun _ _ => congrArg some) (fun _ _ => congrArg some) fun _ _ _ => rfl

/-- As numbers they have one place among the others. -/
theorem rank? : v.toBinary64?.map Binary64.rank? = w.toBinary64?.map Binary64.rank? :=
  h.view (f := fun v => v.toBinary64?.map Binary64.rank?) hviews.rank? (fun _ _ _ => rfl)
    (fun _ _ _ => rfl) fun _ _ _ => rfl

/-- So have they as what is compared. -/
theorem ordinal? : v.ordinal?.map Binary64.rank? = w.ordinal?.map Binary64.rank? :=
  h.view (f := fun v => v.ordinal?.map Binary64.rank?) hviews.ordinal? (fun _ _ _ => rfl)
    (fun _ _ _ => rfl) fun _ _ _ => rfl

/-- A date starts alike from either. -/
theorem startDate (scope : Scope) : scope.startDate v = scope.startDate w :=
  h.view (hviews.startDate scope) (fun _ _ _ => rfl) (fun _ _ _ => rfl) fun _ _ _ => rfl

/-- So does a date-time. -/
theorem startTime (scope : Scope) : scope.startTime v = scope.startTime w :=
  h.view (hviews.startTime scope) (fun _ _ _ => rfl) (fun _ _ _ => rfl) fun _ _ _ => rfl

end Corresponds

/-! ## Equalities -/

/-- Items are the same one by one. -/
theorem sameItems_eq_isEqv (items others : List Value) :
    sameItems items others = items.isEqv others same := by
  induction items generalizing others with
  | nil => cases others <;> rfl
  | cons item rest ih =>
      cases others with
      | nil => rfl
      | cons other others => rw [sameItems, List.isEqv, ih]

/-- Items are loosely equal one by one. -/
theorem looselyEqualItems_eq_isEqv (items others : List Value) :
    looselyEqualItems items others = items.isEqv others looselyEqual := by
  induction items generalizing others with
  | nil => cases others <;> rfl
  | cons item rest ih =>
      cases others with
      | nil => rfl
      | cons other others => rw [looselyEqualItems, List.isEqv, ih]

/-- Every entry of the first map is bound to an equal value in the second. -/
def allBound (eq : Value → Value → Bool) (entries others : Entries Value) : Bool :=
  entries.all fun entry => (Entries.find? entry.1 others).any (eq entry.2)

/-- Entries are the same key by key. -/
theorem sameEntries_eq_allBound (entries others : Entries Value) :
    sameEntries entries others = allBound same entries others := by
  induction entries with
  | nil => rfl
  | cons entry rest ih =>
      rw [sameEntries, allBound, List.all_cons, ih]
      cases Entries.find? entry.1 others <;> rfl

/-- Entries are loosely equal key by key. -/
theorem looselyEqualEntries_eq_allBound (entries others : Entries Value) :
    looselyEqualEntries entries others = allBound looselyEqual entries others := by
  induction entries with
  | nil => rfl
  | cons entry rest ih =>
      rw [looselyEqualEntries, allBound, List.all_cons, ih]
      cases Entries.find? entry.1 others <;> rfl

section

variable {r : Value → Value → Prop} {eq : Value → Value → Bool}

/-- Items are equal when those in their places are. -/
theorem isEqv_congr {items items' others others' : List Value} (h : List.Forall₂ r items items')
    (hothers : List.Forall₂ r others others')
    (heq : ∀ v ∈ items, ∀ v' w w', r v v' → r w w' → eq v w = eq v' w') :
    items.isEqv others eq = items'.isEqv others' eq := by
  induction h generalizing others others' with
  | nil => cases hothers <;> rfl
  | cons hitem _ ih =>
      obtain ⟨hfirst, hrest⟩ := List.forall_mem_cons.1 heq
      cases hothers with
      | nil => rfl
      | cons hother hothers =>
          rw [List.isEqv, List.isEqv, hfirst _ _ _ hitem hother, ih hothers hrest]

/-- Every key is bound on the other side too, and its values are equal. -/
theorem allBound_iff {entries others : Entries Value} : allBound eq entries others ↔
    ∀ entry ∈ entries, ∃ w, Entries.find? entry.1 others = some w ∧ eq entry.2 w := by
  simp only [allBound, List.all_eq_true, Option.any_eq_true]

/-- Entries are bound to equal values when those in their places are. -/
theorem allBound_of_rel {r : Value → Value → Prop} {entries entries' others others' : Entries Value}
    (hkeys : Entries.Distinct entries')
    (h : ∀ key, Option.Rel r (Entries.find? key entries) (Entries.find? key entries'))
    (hothers : ∀ key, Option.Rel r (Entries.find? key others) (Entries.find? key others'))
    (heq : ∀ key v v' w w', Entries.find? key entries = some v →
      Entries.find? key entries' = some v' → r v v' → r w w' → eq v w → eq v' w')
    (hall : allBound eq entries others) : allBound eq entries' others' := by
  refine allBound_iff.2 fun entry hentry => ?_
  have hfind := Entries.find?_of_mem hkeys hentry
  obtain ⟨v, hv, hr⟩ := exists_of_rel (rel_swap (h entry.1)) hfind
  obtain ⟨w, hw, hvw⟩ := allBound_iff.1 hall (entry.1, v) (Entries.mem_of_find? hv)
  obtain ⟨w', hw', hr'⟩ := exists_of_rel (hothers entry.1) hw
  exact ⟨w', hw', heq entry.1 v entry.2 w w' hv hfind hr hr' hvw⟩

/-- Entries may be replaced by related ones on both sides, wherever equality does not tell their
values apart. -/
theorem allBound_congr {r : Value → Value → Prop} {entries entries' others others' : Entries Value}
    (hkeys : Entries.Distinct entries) (hkeys' : Entries.Distinct entries')
    (h : ∀ key, Option.Rel r (Entries.find? key entries) (Entries.find? key entries'))
    (hothers : ∀ key, Option.Rel r (Entries.find? key others) (Entries.find? key others'))
    (heq : ∀ entry ∈ entries, ∀ v' w w', r entry.2 v' → r w w' → eq entry.2 w = eq v' w') :
    allBound eq entries others = allBound eq entries' others' := by
  have hfound {key : String} {v v' w w' : Value} (hv : Entries.find? key entries = some v)
      (hr : r v v') (hr' : r w w') : eq v w = eq v' w' :=
    heq (key, v) (Entries.mem_of_find? hv) v' w w' hr hr'
  refine Bool.eq_iff_iff.2 ⟨allBound_of_rel hkeys' h hothers ?_, ?_⟩
  · intro key v v' w w' hv _ hr hr' hvw
    rwa [← hfound hv hr hr']
  · refine allBound_of_rel hkeys (fun key => rel_swap (h key)) (fun key => rel_swap (hothers key)) ?_
    intro key v' v w' w _ hv hr hr' hvw
    rwa [hfound hv hr hr']

end

/-! ## Equalities of corresponding values -/

/-- What a value is made of. -/
inductive Shape where
  | leaf
  | list
  | map
  | node

/-- The constructor of a value, all leaves alike. -/
def shape : Value → Shape
  | .list _ => .list
  | .map _ => .map
  | .node _ _ => .node
  | _ => .leaf

theorem shape_of_isLeaf {v : Value} (h : v.isLeaf) : v.shape = .leaf := by
  cases v with
  | list _ | map _ | node _ _ => cases h
  | _ => rfl

/-- Values made of different things are not equal, in either sense. -/
theorem same_of_shape_ne {v w : Value} (h : v.shape ≠ w.shape) : v.same w = false := by
  cases v <;> cases w <;> first | rfl | exact absurd rfl h

/-- Values of different constructors are not equal. -/
theorem looselyEqual_of_shape_ne {v w : Value} (h : v.shape ≠ w.shape) :
    v.looselyEqual w = false := by
  cases v <;> cases w <;> first | exact absurd rfl h | rfl

namespace Corresponds

variable {v w : Value}

/-- Corresponding values are made of the same things. -/
theorem shape_eq (h : Corresponds related v w) : v.shape = w.shape := by
  cases h with
  | leaf hv hw _ => rw [shape_of_isLeaf hv, shape_of_isLeaf hw]
  | list _ | map _ _ _ _ | node _ _ => rfl

/-! A value corresponds to one that is made of the same thing. -/

/-- What corresponds to a leaf is a related leaf. -/
theorem exists_leaf (hv : v.isLeaf) (h : Corresponds related v w) : w.isLeaf ∧ related v w := by
  cases h with
  | leaf _ hw h => exact ⟨hw, h⟩
  | list _ | map _ _ _ _ | node _ _ => cases hv

/-- What corresponds to a list is a list of corresponding items. -/
theorem exists_list {items : List Value} (h : Corresponds related (.list items) w) :
    ∃ others, w = .list others ∧ List.Forall₂ (Corresponds related) items others := by
  cases h with
  | leaf hleaf _ _ => cases hleaf
  | list h => exact ⟨_, rfl, h⟩

/-- What corresponds to a map is a map, and the keys that are bound correspond. -/
theorem exists_map {entries : Entries Value} (h : Corresponds related (.map entries) w) :
    ∃ others, w = .map others ∧ Entries.Distinct entries ∧ Entries.Distinct others ∧
      entries.length = others.length ∧
      ∀ key, Option.Rel (Corresponds related) (Entries.find? key entries) (Entries.find? key others) := by
  cases h with
  | leaf hleaf _ _ => cases hleaf
  | map hkeys hothers hlength h => exact ⟨_, rfl, hkeys, hothers, hlength, h⟩

/-- What corresponds to a node is a node of the operator on corresponding operands. -/
theorem exists_node {op : Operator} {operands : List Value}
    (h : Corresponds related (.node op operands) w) :
    ∃ others, w = .node op others ∧ List.Forall₂ (Corresponds related) operands others := by
  cases h with
  | leaf hleaf _ _ => cases hleaf
  | node _ h => exact ⟨_, rfl, h⟩

end Corresponds

/-- An equality does not tell the value apart from those that correspond to it. -/
def EqualAlike (related : Value → Value → Prop) (eq : Value → Value → Bool) (v : Value) : Prop :=
  ∀ ⦃v' w w' : Value⦄, Corresponds related v v' → Corresponds related w w' → eq v w = eq v' w'

/-- An equality that goes through lists and maps, and tells neither related leaves nor nodes with
corresponding operands apart. -/
structure ComparesByParts (related : Value → Value → Prop) (eq : Value → Value → Bool) : Prop where
  shape : ∀ v w, v.shape ≠ w.shape → eq v w = false
  leaf : ∀ v v' w w' : Value, v.isLeaf → v'.isLeaf → w.isLeaf → w'.isLeaf →
    related v v' → related w w' → eq v w = eq v' w'
  list : ∀ items others, eq (.list items) (.list others) = items.isEqv others eq
  map : ∀ entries others : Entries Value, eq (.map entries) (.map others)
    = (decide (entries.length = others.length) && allBound eq entries others)
  node : ∀ op op' operands operands' others others', (∀ v ∈ operands, EqualAlike related eq v) →
    List.Forall₂ (Corresponds related) operands operands' →
    List.Forall₂ (Corresponds related) others others' →
    eq (.node op operands) (.node op' others) = eq (.node op operands') (.node op' others')

namespace ComparesByParts

variable {eq : Value → Value → Bool} (heq : ComparesByParts related eq) {v v' w w' : Value}

include heq

/-- Values made of different things are told apart, and so are those that correspond to them. -/
theorem congr_of_shape_ne (hne : v.shape ≠ w.shape) (h : Corresponds related v v')
    (h' : Corresponds related w w') : eq v w = eq v' w' := by
  rw [heq.shape v w hne, heq.shape v' w' (by rwa [← h.shape_eq, ← h'.shape_eq])]

/-- Leaves are told apart as those that correspond to them are. -/
theorem congr_leaf (hv : v.isLeaf) (hw : w.isLeaf) (h : Corresponds related v v')
    (h' : Corresponds related w w') : eq v w = eq v' w' := by
  obtain ⟨hv', hr⟩ := h.exists_leaf hv
  obtain ⟨hw', hr'⟩ := h'.exists_leaf hw
  exact heq.leaf v v' w w' hv hv' hw hw' hr hr'

/-- So are lists, if it holds of the items. -/
theorem congr_list {items others : List Value} (ih : ∀ v ∈ items, EqualAlike related eq v)
    (h : Corresponds related (.list items) v') (h' : Corresponds related (.list others) w') :
    eq (.list items) (.list others) = eq v' w' := by
  obtain ⟨items', rfl, hitems⟩ := h.exists_list
  obtain ⟨others', rfl, hothers⟩ := h'.exists_list
  rw [heq.list, heq.list]
  exact isEqv_congr hitems hothers fun v hv _ _ _ => @ih v hv _ _ _

/-- So are maps, if it holds of what they bind. -/
theorem congr_map {entries others : Entries Value} (ih : ∀ entry ∈ entries, EqualAlike related eq entry.2)
    (h : Corresponds related (.map entries) v') (h' : Corresponds related (.map others) w') :
    eq (.map entries) (.map others) = eq v' w' := by
  obtain ⟨entries', rfl, hkeys, hkeys', hlength, hentries⟩ := h.exists_map
  obtain ⟨others', rfl, _, _, hlength', hothers⟩ := h'.exists_map
  rw [heq.map, heq.map, hlength, hlength', allBound_congr hkeys hkeys' hentries hothers
    fun entry hentry _ _ _ => @ih entry hentry _ _ _]

/-- **An equality that goes through lists and maps does not tell corresponding values apart.** -/
theorem equalAlike (v : Value) : EqualAlike related eq v := by
  -- corresponding values have one shape, so values of different shapes stay different
  induction v using Value.induction with
  | leaf v hv =>
      intro v' w w' h h'
      cases w with
      | list _ | map _ | node _ _ =>
          refine heq.congr_of_shape_ne ?_ h h'
          rw [shape_of_isLeaf hv]
          exact nofun
      | _ => exact heq.congr_leaf hv rfl h h'
  | list items ih =>
      intro v' w w' h h'
      cases w with
      | list others => exact heq.congr_list ih h h'
      | _ => exact heq.congr_of_shape_ne nofun h h'
  | map entries ih =>
      intro v' w w' h h'
      cases w with
      | map others => exact heq.congr_map ih h h'
      | _ => exact heq.congr_of_shape_ne nofun h h'
  | node op operands ih =>
      intro v' w w' h h'
      cases w with
      | node op' others =>
          obtain ⟨operands', rfl, hoperands⟩ := h.exists_node
          obtain ⟨others', rfl, hothers⟩ := h'.exists_node
          exact heq.node op op' operands operands' others others' ih hoperands hothers
      | _ => exact heq.congr_of_shape_ne nofun h h'

end ComparesByParts

namespace Corresponds

variable {v v' w w' : Value} (hviews : LeafViews related)

include hviews

/-- Sameness goes through lists, maps and nodes. -/
theorem comparesByParts_same : ComparesByParts related same where
  shape _ _ := same_of_shape_ne
  leaf := hviews.same
  list items others := by rw [same, sameItems_eq_isEqv]
  map entries others := by rw [same, sameEntries_eq_allBound]
  node op op' operands operands' others others' ih h h' := by
    rw [same, same, sameItems_eq_isEqv, sameItems_eq_isEqv,
      isEqv_congr h h' fun v hv _ _ _ => @ih v hv _ _ _]

/-- **Corresponding values are the same as the same values.** -/
theorem same_congr (h : Corresponds related v v') (h' : Corresponds related w w') :
    v.same w = v'.same w' :=
  (comparesByParts_same hviews).equalAlike v h h'

/-- Equality across forms goes through lists and maps, and is sameness of nodes. -/
theorem comparesByParts_looselyEqual : ComparesByParts related looselyEqual where
  shape _ _ := looselyEqual_of_shape_ne
  leaf v v' w w' hv hv' hw hw' hr hr' := by
    rw [looselyEqual_of_isLeaf (.inl hv), looselyEqual_of_isLeaf (.inl hv')]
    exact hviews.looselyEqual v v' w w' hv hv' hw hw' hr hr'
  list items others := by rw [looselyEqual, looselyEqualItems_eq_isEqv]
  map entries others := by rw [looselyEqual, looselyEqualEntries_eq_allBound]
  node op op' operands operands' others others' _ h h' :=
    same_congr hviews (.node op h) (.node op' h')

/-- **Corresponding values are equal, across forms, to the same values.** -/
theorem looselyEqual_congr (h : Corresponds related v v') (h' : Corresponds related w w') :
    v.looselyEqual w = v'.looselyEqual w' :=
  (comparesByParts_looselyEqual hviews).equalAlike v h h'

end Corresponds

end Value

end Latent

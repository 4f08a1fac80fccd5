import Latent.Evaluate

/-!
# The parts of a value

Values are trees: a list has items, a map has entries, a node has operands, and everything else is a
*leaf*.  `Value.induction` is induction over this tree, and `Value.all` asks something of a value and
of each of its parts.
-/

namespace Latent

namespace Value

/-- A value without parts. -/
def isLeaf : Value → Bool
  | list _ | map _ | node .. => false
  | _ => true

/-- What holds of leaves, and of a value as soon as it holds of its parts, holds of every value. -/
@[elab_as_elim]
theorem induction {motive : Value → Prop} (leaf : ∀ v, v.isLeaf → motive v)
    (list : ∀ items, (∀ v ∈ items, motive v) → motive (.list items))
    (map : ∀ entries, (∀ entry ∈ entries, motive entry.2) → motive (.map entries))
    (node : ∀ op operands, (∀ v ∈ operands, motive v) → motive (.node op operands)) :
    ∀ v, motive v
  | .list items => list items fun v _ => induction leaf list map node v
  | .map entries => map entries fun entry hentry =>
      have : sizeOf entry.2 < sizeOf entries :=
        Nat.lt_of_le_of_lt (by cases entry; simp) (List.sizeOf_lt_of_mem hentry)
      induction leaf list map node entry.2
  | .node op operands => node op operands fun v _ => induction leaf list map node v
  | .null => leaf _ rfl
  | .boolean _ => leaf _ rfl
  | .integer _ => leaf _ rfl
  | .float _ => leaf _ rfl
  | .decimal _ => leaf _ rfl
  | .string _ => leaf _ rfl
  | .date _ => leaf _ rfl
  | .dateTime _ => leaf _ rfl
  | .time _ => leaf _ rfl
  | .duration _ => leaf _ rfl

/-! ## Conditions on every part -/

mutual

/-- A condition holds of a value and of all of its parts. -/
def all (p : Value → Bool) : Value → Bool
  | list items => p (list items) && allItems p items
  | map entries => p (map entries) && allEntries p entries
  | node op operands => p (node op operands) && allItems p operands
  | v => p v

/-- The condition holds of all items and of their parts. -/
def allItems (p : Value → Bool) : List Value → Bool
  | [] => true
  | item :: rest => all p item && allItems p rest

/-- The condition holds of all that is bound and of its parts. -/
def allEntries (p : Value → Bool) : List (String × Value) → Bool
  | [] => true
  | (_, value) :: rest => all p value && allEntries p rest

end

variable {p : Value → Bool}

/-- Of the items of a list, the condition holds of each and of all of its parts. -/
@[simp] theorem allItems_iff {items : List Value} : allItems p items ↔ ∀ v ∈ items, v.all p := by
  induction items with
  | nil => simp [allItems]
  | cons item rest ih => simp [allItems, ih]

/-- So it does of what a map binds. -/
@[simp] theorem allEntries_iff {entries : List (String × Value)} :
    allEntries p entries ↔ ∀ entry ∈ entries, entry.2.all p := by
  induction entries with
  | nil => simp [allEntries]
  | cons entry rest ih => simp [allEntries, ih]

/-- A condition on every part of a list is one on the list and on its items. -/
@[simp] theorem all_list {items : List Value} :
    (list items).all p ↔ p (list items) ∧ ∀ v ∈ items, v.all p := by
  rw [all, Bool.and_eq_true, allItems_iff]

/-- On a map, it is one on the map and on what it binds. -/
@[simp] theorem all_map {entries : List (String × Value)} :
    (map entries).all p ↔ p (map entries) ∧ ∀ entry ∈ entries, entry.2.all p := by
  rw [all, Bool.and_eq_true, allEntries_iff]

/-- On a node, it is one on the node and on its operands. -/
@[simp] theorem all_node {op : Operator} {operands : List Value} :
    (node op operands).all p ↔ p (node op operands) ∧ ∀ v ∈ operands, v.all p := by
  rw [all, Bool.and_eq_true, allItems_iff]

/-- A condition on every part is a condition on the whole. -/
theorem holds_of_all {v : Value} (h : v.all p) : p v := by
  match v, h with
  | list _, h => exact (all_list.1 h).1
  | map _, h => exact (all_map.1 h).1
  | node _ _, h => exact (all_node.1 h).1
  | null, h | boolean _, h | integer _, h | float _, h | decimal _, h | string _, h | date _, h
  | dateTime _, h | time _, h | duration _, h => exact h

/-- A leaf has no part but itself. -/
theorem all_of_isLeaf {v : Value} (hleaf : v.isLeaf) (h : p v) : v.all p := by
  cases v with
  | list _ | map _ | node _ _ => cases hleaf
  | _ => exact h

/-- Induction over the values all of whose parts meet a condition. -/
@[elab_as_elim]
theorem all_induction {motive : (v : Value) → v.all p → Prop}
    (leaf : ∀ v (h : v.all p), v.isLeaf → motive v h)
    (list : ∀ items (h : (list items).all p),
      (∀ v (hv : v ∈ items), motive v ((all_list.1 h).2 v hv)) → motive (.list items) h)
    (map : ∀ entries (h : (map entries).all p),
      (∀ entry (he : entry ∈ entries), motive entry.2 ((all_map.1 h).2 entry he)) → motive (.map entries) h)
    (node : ∀ op operands (h : (node op operands).all p),
      (∀ v (hv : v ∈ operands), motive v ((all_node.1 h).2 v hv)) → motive (.node op operands) h) :
    ∀ v (h : v.all p), motive v h := by
  intro v h
  induction v using Value.induction with
  | leaf v hleaf => exact leaf v h hleaf
  | list items ih => exact list items h fun v hv => ih v hv _
  | map entries ih => exact map entries h fun entry he => ih entry he _
  | node op operands ih => exact node op operands h fun v hv => ih v hv _

/-- What follows from a condition holds of every part when the condition does. -/
theorem all_of_imp {q : Value → Bool} (hpq : ∀ v, p v → q v) {v : Value} (h : v.all p) : v.all q := by
  induction v, h using all_induction with
  | leaf v h hleaf => exact all_of_isLeaf hleaf (hpq v (holds_of_all h))
  | list items h ih => exact all_list.2 ⟨hpq _ (holds_of_all h), ih⟩
  | map entries h ih => exact all_map.2 ⟨hpq _ (holds_of_all h), ih⟩
  | node op operands h ih => exact all_node.2 ⟨hpq _ (holds_of_all h), ih⟩

/-- Nothing is asked of any part. -/
theorem all_true (v : Value) : v.all fun _ => true := by
  induction v using Value.induction with
  | leaf v hleaf => exact all_of_isLeaf hleaf rfl
  | list items ih => exact all_list.2 ⟨rfl, ih⟩
  | map entries ih => exact all_map.2 ⟨rfl, ih⟩
  | node op operands ih => exact all_node.2 ⟨rfl, ih⟩

/-- Two conditions on every part are one. -/
theorem all_and {q : Value → Bool} {v : Value} (hp : v.all p) (hq : v.all q) :
    v.all fun v => p v && q v := by
  have hboth {v : Value} (hp : v.all p) (hq : v.all q) : (p v && q v) = true :=
    Bool.and_eq_true_iff.2 ⟨holds_of_all hp, holds_of_all hq⟩
  induction v, hp using all_induction with
  | leaf v hp hleaf => exact all_of_isLeaf hleaf (hboth hp hq)
  | list items hp ih => exact all_list.2 ⟨hboth hp hq, fun v hv => ih v hv ((all_list.1 hq).2 v hv)⟩
  | map entries hp ih => exact all_map.2 ⟨hboth hp hq, fun e he => ih e he ((all_map.1 hq).2 e he)⟩
  | node op operands hp ih =>
      exact all_node.2 ⟨hboth hp hq, fun v hv => ih v hv ((all_node.1 hq).2 v hv)⟩

end Value

end Latent

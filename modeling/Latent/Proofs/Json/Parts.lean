import Latent.Json.Basic

/-!
# The parts of a JSON tree

Induction over JSON trees, and conditions on every part of one.
-/

namespace Latent

namespace Json

/-- A tree without parts. -/
def isLeaf : Json → Bool
  | array _ | object _ => false
  | _ => true

/-- What holds of leaves, and of a tree as soon as it holds of its parts, holds of every tree. -/
@[elab_as_elim]
theorem induction {motive : Json → Prop} (leaf : ∀ tree, tree.isLeaf → motive tree)
    (array : ∀ items, (∀ tree ∈ items, motive tree) → motive (.array items))
    (object : ∀ entries, (∀ entry ∈ entries, motive entry.2) → motive (.object entries)) :
    ∀ tree, motive tree
  | .array items => array items fun tree _ => induction leaf array object tree
  | .object entries => object entries fun entry hentry =>
      have : sizeOf entry.2 < sizeOf entries :=
        Nat.lt_of_le_of_lt (by cases entry; simp) (List.sizeOf_lt_of_mem hentry)
      induction leaf array object entry.2
  | .null => leaf _ rfl
  | .boolean _ => leaf _ rfl
  | .number _ => leaf _ rfl
  | .string _ => leaf _ rfl

mutual

/-- A condition holds of a tree and of all of its parts. -/
def all (p : Json → Bool) : Json → Bool
  | array items => p (array items) && allItems p items
  | object entries => p (object entries) && allEntries p entries
  | tree => p tree

/-- The condition holds of all items and of their parts. -/
def allItems (p : Json → Bool) : List Json → Bool
  | [] => true
  | item :: rest => all p item && allItems p rest

/-- The condition holds of all that is bound and of its parts. -/
def allEntries (p : Json → Bool) : List (String × Json) → Bool
  | [] => true
  | (_, tree) :: rest => all p tree && allEntries p rest

end

variable {p : Json → Bool}

/-- A condition on every part of an array is one on the array and on its items. -/
@[simp] theorem all_array {items : List Json} :
    (array items).all p ↔ p (array items) ∧ ∀ tree ∈ items, tree.all p := by
  have hitems : allItems p items ↔ ∀ tree ∈ items, tree.all p := by
    induction items with
    | nil => simp [allItems]
    | cons item rest ih => simp [allItems, ih]
  rw [all, Bool.and_eq_true, hitems]

/-- On an object, it is one on the object and on what it binds. -/
@[simp] theorem all_object {entries : List (String × Json)} :
    (object entries).all p ↔ p (object entries) ∧ ∀ entry ∈ entries, entry.2.all p := by
  have hentries : allEntries p entries ↔ ∀ entry ∈ entries, entry.2.all p := by
    induction entries with
    | nil => simp [allEntries]
    | cons entry rest ih => simp [allEntries, ih]
  rw [all, Bool.and_eq_true, hentries]

/-- A condition on every part is a condition on the whole. -/
theorem holds_of_all {tree : Json} (h : tree.all p) : p tree := by
  cases tree with
  | array items => exact (all_array.1 h).1
  | object entries => exact (all_object.1 h).1
  | _ => exact h

/-- A leaf has no part but itself. -/
theorem all_of_isLeaf {tree : Json} (hleaf : tree.isLeaf) (h : p tree) : tree.all p := by
  cases tree with
  | array _ | object _ => cases hleaf
  | _ => exact h

/-- Nothing is asked of any part. -/
theorem all_true (tree : Json) : tree.all fun _ => true := by
  induction tree using Json.induction with
  | leaf tree hleaf => exact all_of_isLeaf hleaf rfl
  | array items ih => exact all_array.2 ⟨rfl, ih⟩
  | object entries ih => exact all_object.2 ⟨rfl, ih⟩

/-- Induction over the trees all of whose parts meet a condition. -/
@[elab_as_elim]
theorem all_induction {motive : (tree : Json) → tree.all p → Prop}
    (leaf : ∀ tree (h : tree.all p), tree.isLeaf → motive tree h)
    (array : ∀ items (h : (array items).all p),
      (∀ tree (ht : tree ∈ items), motive tree ((all_array.1 h).2 tree ht)) → motive (.array items) h)
    (object : ∀ entries (h : (object entries).all p),
      (∀ entry (he : entry ∈ entries), motive entry.2 ((all_object.1 h).2 entry he)) →
      motive (.object entries) h) :
    ∀ tree (h : tree.all p), motive tree h := by
  intro tree h
  induction tree using Json.induction with
  | leaf tree hleaf => exact leaf tree h hleaf
  | array items ih => exact array items h fun tree ht => ih tree ht _
  | object entries ih => exact object entries h fun entry he => ih entry he _

/-! ## Nesting -/

mutual

/-- So many arrays and objects are inside each other. -/
def nesting : Json → Nat
  | array items => deepest items + 1
  | object entries => deepestEntry entries + 1
  | _ => 0

/-- The deepest nesting of an item. -/
def deepest : List Json → Nat
  | [] => 0
  | item :: rest => max (nesting item) (deepest rest)

/-- The deepest nesting of what is bound. -/
def deepestEntry : List (String × Json) → Nat
  | [] => 0
  | (_, tree) :: rest => max (nesting tree) (deepestEntry rest)

end

/-- A leaf is nested in nothing. -/
theorem nesting_of_isLeaf {tree : Json} (h : tree.isLeaf) : tree.nesting = 0 := by
  cases tree with
  | array _ | object _ => cases h
  | _ => rfl

/-- No item nests deeper than the deepest. -/
theorem nesting_le_deepest {items : List Json} {tree : Json} (h : tree ∈ items) :
    tree.nesting ≤ deepest items := by
  induction items with
  | nil => cases h
  | cons item rest ih =>
      rw [deepest]
      rcases List.mem_cons.1 h with rfl | h
      · exact Nat.le_max_left _ _
      · exact Nat.le_trans (ih h) (Nat.le_max_right _ _)

/-- Nothing that is bound nests deeper than the deepest. -/
theorem nesting_le_deepestEntry {entries : List (String × Json)} {entry : String × Json}
    (h : entry ∈ entries) : entry.2.nesting ≤ deepestEntry entries := by
  induction entries with
  | nil => cases h
  | cons first rest ih =>
      rw [deepestEntry]
      rcases List.mem_cons.1 h with rfl | h
      · exact Nat.le_max_left _ _
      · exact Nat.le_trans (ih h) (Nat.le_max_right _ _)

/-- A bound on the nesting of all items bounds the deepest. -/
theorem deepest_le {items : List Json} {n : Nat} (h : ∀ tree ∈ items, tree.nesting ≤ n) :
    deepest items ≤ n := by
  induction items with
  | nil => exact Nat.zero_le n
  | cons item rest ih =>
      obtain ⟨hitem, hrest⟩ := List.forall_mem_cons.1 h
      rw [deepest]
      exact Nat.max_le.2 ⟨hitem, ih hrest⟩

/-- A bound on the nesting of all that is bound bounds the deepest. -/
theorem deepestEntry_le {entries : Entries Json} {n : Nat}
    (h : ∀ entry ∈ entries, entry.2.nesting ≤ n) : deepestEntry entries ≤ n := by
  induction entries with
  | nil => exact Nat.zero_le n
  | cons entry rest ih =>
      obtain ⟨hentry, hrest⟩ := List.forall_mem_cons.1 h
      rw [deepestEntry]
      exact Nat.max_le.2 ⟨hentry, ih hrest⟩

/-- No object binds a key twice, the parts of the tree aside. -/
def hasDistinctKeys : Json → Bool
  | object entries => decide (Entries.Distinct entries)
  | _ => true

/-- A leaf has no keys. -/
theorem all_hasDistinctKeys_of_isLeaf {tree : Json} (h : tree.isLeaf) : tree.all hasDistinctKeys := by
  refine all_of_isLeaf h ?_
  cases tree with
  | object _ => cases h
  | _ => rfl

end Json

end Latent

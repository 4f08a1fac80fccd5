import Latent.Value.Basic

/-!
# Levels

A leaf is one level; a list, a map or a node is one level more than the deepest of its items, entries or
arguments.  The statements of `And` and `Or` are arguments of their own.
-/

namespace Latent

namespace Value

mutual

/-- So many levels are inside each other. -/
def levels : Value → Nat
  | list items => deepest items + 1
  | map entries => deepestEntry entries + 1
  | node op operands =>
    (if op.isVariadic then deepestSpread operands else deepest operands) + 1
  | _ => 1

/-- The levels of the deepest item. -/
def deepest : List Value → Nat
  | [] => 0
  | item :: rest => max (levels item) (deepest rest)

/-- The levels of the deepest value that is bound to a key. -/
def deepestEntry : List (String × Value) → Nat
  | [] => 0
  | (_, value) :: rest => max (levels value) (deepestEntry rest)

/-- The levels of the deepest among the items of lists. -/
def deepestSpread : List Value → Nat
  | [] => 0
  | list items :: rest => max (deepest items) (deepestSpread rest)
  | v :: rest => max (levels v) (deepestSpread rest)

end

/-- Even a leaf takes a level. -/
theorem levels_pos (v : Value) : 0 < v.levels := by
  cases v <;> exact Nat.succ_pos _

/-- No item has more levels than the deepest one. -/
theorem levels_le_deepest {items : List Value} {v : Value} (h : v ∈ items) :
    v.levels ≤ deepest items := by
  induction items with
  | nil => cases h
  | cons item rest ih =>
      rw [deepest]
      rcases List.mem_cons.1 h with rfl | h
      · exact Nat.le_max_left _ _
      · exact Nat.le_trans (ih h) (Nat.le_max_right _ _)

/-- No bound value has more levels than the deepest one. -/
theorem levels_le_deepestEntry {entries : List (String × Value)} {entry : String × Value}
    (h : entry ∈ entries) : entry.2.levels ≤ deepestEntry entries := by
  induction entries with
  | nil => cases h
  | cons first rest ih =>
      rw [deepestEntry]
      rcases List.mem_cons.1 h with rfl | h
      · exact Nat.le_max_left _ _
      · exact Nat.le_trans (ih h) (Nat.le_max_right _ _)

/-- The deepest item has no more levels than all items may have. -/
theorem deepest_le {items : List Value} {n : Nat} (h : ∀ v ∈ items, v.levels ≤ n) :
    deepest items ≤ n := by
  induction items with
  | nil => exact Nat.zero_le n
  | cons item rest ih =>
      obtain ⟨hitem, hrest⟩ := List.forall_mem_cons.1 h
      rw [deepest]
      exact Nat.max_le.2 ⟨hitem, ih hrest⟩

/-- The deepest bound value has no more levels than all of them may have. -/
theorem deepestEntry_le {entries : List (String × Value)} {n : Nat}
    (h : ∀ entry ∈ entries, entry.2.levels ≤ n) : deepestEntry entries ≤ n := by
  induction entries with
  | nil => exact Nat.zero_le n
  | cons entry rest ih =>
      obtain ⟨hentry, hrest⟩ := List.forall_mem_cons.1 h
      rw [deepestEntry]
      exact Nat.max_le.2 ⟨hentry, ih hrest⟩

/-- The deepest of two lists is in one of them. -/
theorem deepest_append (items others : List Value) :
    deepest (items ++ others) = max (deepest items) (deepest others) := by
  induction items with
  | nil => exact (Nat.zero_max _).symm
  | cons item rest ih => rw [List.cons_append, deepest, deepest, ih, Nat.max_assoc]

/-- Spreading the statements first gives the same levels. -/
theorem deepestSpread_eq (operands : List Value) :
    deepestSpread operands = deepest (spread operands) := by
  induction operands with
  | nil => rfl
  | cons v rest ih =>
      cases v with
      | list items => rw [deepestSpread, ih, spread, deepest_append]
      | _ => exact congrArg (max _) ih

/-- Statements that are arguments of their own take no level for the list of them. -/
theorem deepestSpread_le_deepest (operands : List Value) :
    deepestSpread operands ≤ deepest operands := by
  induction operands with
  | nil => exact Nat.le_refl 0
  | cons v rest ih =>
      cases v with
      | list items =>
          rw [deepestSpread, deepest, levels]
          omega
      | _ =>
          show max _ _ ≤ max _ _
          omega

variable {op : Operator} {operands items : List Value} {entries : List (String × Value)}

/-- An item has fewer levels than its list. -/
theorem levels_item {v : Value} (h : v ∈ items) : v.levels < (list items).levels :=
  Nat.lt_succ_of_le (levels_le_deepest h)

/-- A bound value has fewer levels than its map. -/
theorem levels_entry {entry : String × Value} (h : entry ∈ entries) :
    entry.2.levels < (map entries).levels :=
  Nat.lt_succ_of_le (levels_le_deepestEntry h)

/-- An argument has fewer levels than its call. -/
theorem levels_argument {v : Value} (h : v ∈ arguments op operands) :
    v.levels < (node op operands).levels := by
  unfold arguments at h
  rw [levels]
  split at h
  · rename_i hvariadic
    rw [if_pos hvariadic, deepestSpread_eq]
    exact Nat.lt_succ_of_le (levels_le_deepest h)
  · rename_i hvariadic
    rw [if_neg hvariadic]
    exact Nat.lt_succ_of_le (levels_le_deepest (Operator.mem_of_mem_toArguments h))

end Value

end Latent

import Latent.Entries
import Mathlib.Data.List.Forall2
import Mathlib.Data.Option.Defs

/-!
# Entries in another order

When no key is bound twice, what is found under a key does not hang on the order of the entries
(`find?_perm`).  `Reordered r` says that the entries can be put in the order of others, and are then
related to them value by value; of distinct keys this is so exactly when what is found under each key
is related (`reordered_iff`).
-/

namespace Latent

namespace Entries

variable {α β : Type} {entries others : Entries α} {key : String} {value : α}

theorem find?_cons_self (key : String) (value : α) (entries : Entries α) :
    find? key ((key, value) :: entries) = some value := if_pos rfl

/-! ## Permuted entries -/

theorem find?_eq_some_iff (h : Distinct entries) :
    find? key entries = some value ↔ (key, value) ∈ entries :=
  ⟨mem_of_find?, find?_of_mem h⟩

theorem Distinct.perm (h : Distinct entries) (hperm : entries.Perm others) : Distinct others :=
  (hperm.map Prod.fst).nodup_iff.1 h

/-- **What is found does not hang on the order of the entries.** -/
theorem find?_perm (h : Distinct entries) (hperm : entries.Perm others) (key : String) :
    find? key entries = find? key others := by
  apply Option.ext
  intro value
  rw [find?_eq_some_iff h, find?_eq_some_iff (h.perm hperm), hperm.mem_iff]

/-! ## Entries without a key -/

theorem remove_sublist (key : String) (entries : Entries α) :
    (remove key entries).Sublist entries := by
  induction entries with
  | nil => exact .refl _
  | cons head rest ih =>
      rw [remove]
      split
      · exact List.sublist_cons_self head rest
      · exact ih.cons_cons head

theorem Distinct.remove (h : Distinct entries) (key : String) :
    Distinct (Entries.remove key entries) :=
  ((remove_sublist key entries).map Prod.fst).nodup h

/-- A key that is unbound is not found. -/
theorem find?_remove_self (h : Distinct entries) (key : String) :
    find? key (remove key entries) = none := by
  induction entries with
  | nil => rfl
  | cons head rest ih =>
      obtain ⟨hhead, hrest⟩ := List.nodup_cons.1 h
      rw [remove]
      split
      · rename_i heq
        rwa [← Option.not_isSome_iff_eq_none, isSome_find?_iff, ← heq]
      · rename_i hne
        rw [find?, if_neg hne, ih hrest]

/-- What is found can be put in front of the rest. -/
theorem perm_cons_remove (h : find? key entries = some value) :
    entries.Perm ((key, value) :: remove key entries) := by
  induction entries with
  | nil => cases h
  | cons head rest ih =>
      rw [find?] at h
      rw [remove]
      split at h
      · rename_i heq
        cases h
        rw [if_pos heq, ← heq]
      · rename_i hne
        rw [if_neg hne]
        exact ((ih h).cons head).trans (.swap _ _ _)

/-! ## Reordered entries -/

/-- In the order of the other entries, the entries have the same keys and related values. -/
def Reordered (r : α → β → Prop) (entries : Entries α) (others : Entries β) : Prop :=
  ∃ middle : Entries α, entries.Perm middle ∧ keys middle = keys others ∧
    List.Forall₂ r (middle.map Prod.snd) (others.map Prod.snd)

variable {r : α → β → Prop} {others : Entries β}

/-- Under the same keys, in the same order, related values are found. -/
theorem rel_of_forall₂ (hkeys : keys entries = keys others)
    (h : List.Forall₂ r (entries.map Prod.snd) (others.map Prod.snd)) (key : String) :
    Option.Rel r (find? key entries) (find? key others) := by
  induction entries generalizing others with
  | nil =>
      cases others with
      | nil => exact .none
      | cons _ _ => cases hkeys
  | cons head rest ih =>
      cases others with
      | nil => cases hkeys
      | cons other others =>
          obtain ⟨hkey, hrest⟩ := List.cons.inj hkeys
          obtain ⟨hvalue, hvalues⟩ := List.forall₂_cons.1 h
          rw [find?, find?, ← hkey]
          split
          · exact .some hvalue
          · exact ih hrest hvalues

namespace Reordered

variable (h : Reordered r entries others)

include h

theorem length_eq : entries.length = others.length := by
  obtain ⟨middle, hperm, -, hvalues⟩ := h
  have hlength := hvalues.length_eq
  rwa [List.length_map, List.length_map, ← hperm.length_eq] at hlength

theorem distinct (hkeys : Distinct entries) : Distinct others := by
  obtain ⟨middle, hperm, heq, -⟩ := h
  have hmiddle := hkeys.perm hperm
  unfold Distinct at hmiddle ⊢
  rwa [← heq]

/-- Related values are found under each key. -/
theorem rel_find? (hkeys : Distinct entries) (key : String) :
    Option.Rel r (find? key entries) (find? key others) := by
  obtain ⟨middle, hperm, heq, hvalues⟩ := h
  rw [find?_perm hkeys hperm]
  exact rel_of_forall₂ heq hvalues key

end Reordered

/-- Related values are found when a key is unbound. -/
theorem rel_find?_remove (hkeys : Distinct entries) (hothers : Distinct others)
    (h : ∀ key, Option.Rel r (find? key entries) (find? key others)) (removed key : String) :
    Option.Rel r (find? key (remove removed entries)) (find? key (remove removed others)) := by
  by_cases heq : removed = key
  · rw [← heq, find?_remove_self hkeys, find?_remove_self hothers]
    exact .none
  · rw [find?_remove_of_ne heq, find?_remove_of_ne heq]
    exact h key

/-- Entries under which related values are found can be brought in the same order. -/
theorem reordered_of_rel (hkeys : Distinct entries) (hothers : Distinct others)
    (h : ∀ key, Option.Rel r (find? key entries) (find? key others)) : Reordered r entries others := by
  induction others generalizing entries with
  | nil =>
      cases entries with
      | nil => exact ⟨[], .nil, rfl, .nil⟩
      | cons head rest =>
          obtain ⟨key, a⟩ := head
          have hfirst := h key
          rw [find?_cons_self] at hfirst
          cases hfirst
  | cons other others ih =>
      obtain ⟨key, b⟩ := other
      have hrest : Distinct others := (List.nodup_cons.1 hothers).2
      -- the entry under the first of the other keys comes first, and the rest is the rest
      have hfirst := h key
      rw [find?_cons_self] at hfirst
      cases hfind : find? key entries with
      | none =>
          rw [hfind] at hfirst
          cases hfirst
      | some a =>
          rw [hfind] at hfirst
          cases hfirst with
          | some hr =>
              have htail := rel_find?_remove hkeys hothers h key
              rw [remove, if_pos rfl] at htail
              obtain ⟨middle, hperm, heq, hvalues⟩ := ih (hkeys.remove key) hrest htail
              exact ⟨(key, a) :: middle, (perm_cons_remove hfind).trans (hperm.cons _),
                congrArg (key :: ·) heq, .cons hr hvalues⟩

/-- **Entries are reordered when related values are found under each key, and only then.** -/
theorem reordered_iff (hkeys : Distinct entries) : Reordered r entries others ↔
    Distinct others ∧ ∀ key, Option.Rel r (find? key entries) (find? key others) :=
  ⟨fun h => ⟨h.distinct hkeys, h.rel_find? hkeys⟩, fun h => reordered_of_rel hkeys h.1 h.2⟩

end Entries

end Latent

import Latent.Proofs.Json.Texts

/-!
# The keys of a tree that was read

Whatever a text repeats, no object that is read from it binds a key twice.  `Yields` says what a reader
can answer; it is shown of lists and members from what their items yield, and of trees by induction on
the levels of nesting.
-/

namespace Latent

namespace Json.Reading

variable {α : Type} {item : Reads α} {P : α → Prop}

/-- Every item that the reader answers is one of these. -/
def Yields (item : Reads α) (P : α → Prop) : Prop :=
  ∀ {text rest : List Char} {a : α}, item text = some (a, rest) → P a

/-- What was read and put in front of it. -/
theorem forall_mem_of_prepend {first : α} {read : List α × List Char} {as : List α}
    {rest : List Char} (hfirst : P first) (hread : ∀ a ∈ read.1, P a)
    (h : prepend first read = (as, rest)) : ∀ a ∈ as, P a := by
  cases h
  exact List.forall_mem_cons.2 ⟨hfirst, hread⟩

theorem yields_itemsUntil (h : Yields item P) (close : Char) (fuel : Nat) :
    Yields (itemsUntil close item fuel) fun as => ∀ a ∈ as, P a := by
  induction fuel with
  | zero =>
      intro text rest as hread
      cases hread
  | succ fuel ih =>
      intro text rest as hread
      rw [itemsUntil] at hread
      split at hread
      · cases hread
      · rename_i first after hitem
        have hfirst : P first := h hitem
        split at hread
        · cases hread
        · split_ifs at hread
          · cases hread
            exact List.forall_mem_singleton.2 hfirst
          · obtain ⟨read, hothers, hread⟩ := Option.map_eq_some_iff.1 hread
            exact forall_mem_of_prepend hfirst (ih hothers) hread

theorem yields_listUntil (h : Yields item P) (close : Char) :
    Yields (listUntil close item) fun as => ∀ a ∈ as, P a := by
  intro text rest as hread
  rw [listUntil] at hread
  split at hread
  · cases hread
  · split_ifs at hread
    · cases hread
      simp
    · exact yields_itemsUntil h close _ hread

theorem yields_member {value : Reads Json} {P : Json → Prop} (h : Yields value P) :
    Yields (member value) fun entry => P entry.2 := by
  intro text rest entry hread
  rw [member] at hread
  split at hread
  · cases hread
  · split at hread
    · obtain ⟨read, hvalue, hread⟩ := Option.map_eq_some_iff.1 hread
      cases hread
      exact h hvalue
    · cases hread

theorem yields_scalar : Yields scalar fun tree => tree.isLeaf := by
  intro text rest tree hread
  unfold scalar at hread
  split at hread
  · cases hread; rfl
  · cases hread; rfl
  · cases hread; rfl
  · obtain ⟨read, _, hread⟩ := Option.map_eq_some_iff.1 hread
    cases hread
    rfl
  · obtain ⟨read, _, hread⟩ := Option.map_eq_some_iff.1 hread
    cases hread
    rfl

/-- A tree that was read binds no key twice, however often its text does. -/
theorem yields_tree (levels : Nat) : Yields (tree levels) fun tree => tree.all hasDistinctKeys := by
  have hscalar : Yields scalar fun tree => tree.all hasDistinctKeys := fun hread =>
    all_hasDistinctKeys_of_isLeaf (yields_scalar hread)
  induction levels with
  | zero =>
      intro text rest json hread
      exact hscalar hread
  | succ levels ih =>
      intro text rest json hread
      rw [tree] at hread
      split at hread
      · obtain ⟨read, hitems, hread⟩ := Option.map_eq_some_iff.1 hread
        cases hread
        exact all_array.2 ⟨rfl, yields_listUntil ih _ hitems⟩
      · obtain ⟨read, hmembers, hread⟩ := Option.map_eq_some_iff.1 hread
        cases hread
        refine all_object.2 ⟨decide_eq_true (Entries.distinct_ofPairs _), fun entry hentry => ?_⟩
        exact yields_listUntil (yields_member ih) _ hmembers entry (Entries.mem_of_mem_ofPairs hentry)
      · exact hscalar hread

end Json.Reading

/-- **A tree that is read from a text binds no key twice.** -/
theorem Json.hasDistinctKeys_of_read? {text : String} {tree : Json} (h : read? text = some tree) :
    tree.all hasDistinctKeys := by
  unfold read? Reading.ofTextWithin? at h
  split at h
  · rename_i json rest hread
    split_ifs at h
    cases h
    exact Reading.yields_tree _ hread
  · cases h

end Latent

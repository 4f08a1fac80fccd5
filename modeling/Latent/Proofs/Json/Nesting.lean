import Latent.Proofs.Json.Keys

/-!
# How deep a text may be nested

A reader with more levels reads what one with fewer levels reads, and in the same way; no tree that is
read is nested deeper than the levels of its reader.  So the text of a tree is read back exactly when
the tree is not nested deeper than `maxNesting` (`isSome_read?_print_iff`).
-/

namespace Latent

namespace Json

namespace Reading

variable {α : Type} {item wide : Reads α}

/-! ## More levels -/

/-- Whatever the one reader reads, the other reads in the same way. -/
def Extends (item wide : Reads α) : Prop := ∀ {text : List Char} {read : α × List Char},
  item text = some read → wide text = some read

theorem itemsUntil_extends (h : Extends item wide) (close : Char) (fuel : Nat) :
    Extends (itemsUntil close item fuel) (itemsUntil close wide fuel) := by
  induction fuel with
  | zero =>
      intro text read hread
      cases hread
  | succ fuel ih =>
      intro text read hread
      rw [itemsUntil] at hread ⊢
      cases hitem : item text with
      | none =>
          rw [hitem] at hread
          cases hread
      | some first =>
          simp only [hitem] at hread
          simp only [h hitem]
          split at hread
          · cases hread
          · split_ifs at hread ⊢ with hclose hcomma
            · exact hread
            · obtain ⟨others, hothers, hread⟩ := Option.map_eq_some_iff.1 hread
              rw [ih hothers, Option.map_some, hread]

theorem listUntil_extends (h : Extends item wide) (close : Char) :
    Extends (listUntil close item) (listUntil close wide) := by
  intro text read hread
  unfold listUntil at hread ⊢
  split at hread
  · cases hread
  · split_ifs at hread ⊢ with hclose
    · exact hread
    · exact itemsUntil_extends h close _ hread

theorem member_extends {value wide : Reads Json} (h : Extends value wide) :
    Extends (member value) (member wide) := by
  intro text read hread
  unfold member at hread ⊢
  split at hread
  · cases hread
  · split at hread
    · obtain ⟨tree, htree, hread⟩ := Option.map_eq_some_iff.1 hread
      rw [h htree, Option.map_some, hread]
    · cases hread

/-- What begins like an array or an object is not read without parts. -/
theorem scalar_bracket {c : Char} (hc : c = '[' ∨ c = '\x7b') (rest : List Char) :
    scalar (c :: rest) = none := by
  have hnumber : number (c :: rest) = none := by
    by_contra hsome
    obtain ⟨read, hread⟩ := Option.ne_none_iff_exists'.1 hsome
    obtain ⟨_, _, heq, hbegins⟩ := exists_cons_of_number hread
    cases heq
    rcases hc with rfl | rfl <;> rcases hbegins with hbegins | hbegins <;> cases hbegins
  rcases hc with rfl | rfl <;> simp [scalar, hnumber]

/-- One level more loses nothing. -/
theorem tree_succ_extends (levels : Nat) : Extends (tree levels) (tree (levels + 1)) := by
  induction levels with
  | zero =>
      intro text read hread
      unfold tree at hread ⊢
      split
      · rename_i hspace
        rw [hspace, scalar_bracket (.inl rfl)] at hread
        cases hread
      · rename_i hspace
        rw [hspace, scalar_bracket (.inr rfl)] at hread
        cases hread
      · exact hread
  | succ levels ih =>
      intro text read hread
      rw [tree] at hread ⊢
      split at hread
      · obtain ⟨items, hitems, hread⟩ := Option.map_eq_some_iff.1 hread
        rw [listUntil_extends ih _ hitems, Option.map_some, hread]
      · obtain ⟨entries, hentries, hread⟩ := Option.map_eq_some_iff.1 hread
        rw [listUntil_extends (member_extends ih) _ hentries, Option.map_some, hread]
      · exact hread

theorem tree_extends {levels more : Nat} (h : levels ≤ more) : Extends (tree levels) (tree more) := by
  induction h with
  | refl => exact id
  | step _ ih => exact fun hread => tree_succ_extends _ (ih hread)

/-! ## Levels bound the nesting -/

/-- A tree that is read is not nested deeper than the levels of its reader. -/
theorem yields_nesting (levels : Nat) : Yields (tree levels) fun json => json.nesting ≤ levels := by
  have hscalar {levels : Nat} : Yields scalar fun json => json.nesting ≤ levels := by
    intro text rest json hread
    rw [nesting_of_isLeaf (yields_scalar hread)]
    exact Nat.zero_le levels
  induction levels with
  | zero =>
      intro text rest json hread
      exact hscalar hread
  | succ levels ih =>
      intro text rest json hread
      rw [tree] at hread
      split at hread
      · obtain ⟨read, hitems, hread⟩ := Option.map_eq_some_iff.1 hread
        cases hread
        exact Nat.succ_le_succ (deepest_le (yields_listUntil ih _ hitems))
      · obtain ⟨read, hmembers, hread⟩ := Option.map_eq_some_iff.1 hread
        cases hread
        refine Nat.succ_le_succ (deepestEntry_le fun entry hentry => ?_)
        exact yields_listUntil (yields_member ih) _ hmembers entry (Entries.mem_of_mem_ofPairs hentry)
      · exact hscalar hread

end Reading

/-- **A printed tree is read back exactly when it is not nested too deep.** -/
theorem isSome_read?_print_iff {tree : Json} (hkeys : tree.all hasDistinctKeys) :
    (read? tree.print).isSome ↔ tree.nesting ≤ Reading.maxNesting := by
  constructor
  · intro hsome
    unfold read? Reading.ofTextWithin? at hsome
    rw [print, String.toList_ofList] at hsome
    split at hsome
    · rename_i json rest hread
      -- with levels enough for the tree, the same text is read as the tree itself
      have hself := Reading.tree_text tree hkeys (Nat.le_max_right Reading.maxNesting _) []
        (endsRun_nil _)
      rw [List.append_nil, Reading.tree_extends (Nat.le_max_left _ tree.nesting) hread] at hself
      cases hself
      exact Reading.yields_nesting _ hread
    · cases hsome
  · intro hnesting
    rw [read?_print hkeys hnesting]
    rfl

end Json

end Latent

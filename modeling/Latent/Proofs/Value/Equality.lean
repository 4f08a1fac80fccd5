import Latent.Proofs.Value.Sameness

/-!
# Laws of the equalities

On values whose maps bind no key twice, `same` is symmetric and transitive, and a value is the same as
itself exactly when no part of it is `nan`; `looselyEqual` is symmetric, and values that are the same are
equal by it as well.

Equality looks for the keys of one map in the other only.  It is symmetric because maps of one length then
have the same keys (`mem_keys_of_allBound`).
-/

namespace Latent

namespace Value

/-! ## Lists and maps -/

section

variable {eq : Value → Value → Bool}

/-- Items equal themselves if each of them does. -/
theorem isEqv_self {items : List Value} (h : ∀ v ∈ items, eq v v) : items.isEqv items eq := by
  induction items with
  | nil => rfl
  | cons item rest ih =>
      obtain ⟨hitem, hrest⟩ := List.forall_mem_cons.1 h
      rw [List.isEqv, hitem, ih hrest]
      rfl

/-- Items are compared in either direction. -/
theorem isEqv_symm {items others : List Value}
    (h : ∀ v ∈ items, ∀ w ∈ others, eq v w = eq w v) :
    items.isEqv others eq = others.isEqv items eq := by
  induction items generalizing others with
  | nil => cases others <;> rfl
  | cons item rest ih =>
      cases others with
      | nil => rfl
      | cons other others =>
          have hitem := h item List.mem_cons_self other List.mem_cons_self
          have hrest : ∀ v ∈ rest, ∀ w ∈ others, eq v w = eq w v := by
            intro v hv w hw
            exact h v (List.mem_cons_of_mem _ hv) w (List.mem_cons_of_mem _ hw)
          rw [List.isEqv, List.isEqv, hitem, ih hrest]

/-- Entries equal themselves if each of their values does. -/
theorem allBound_self {entries : Entries Value} (hkeys : Entries.Distinct entries)
    (h : ∀ entry ∈ entries, eq entry.2 entry.2) : allBound eq entries entries := by
  rw [allBound_iff]
  intro entry hentry
  exact ⟨entry.2, Entries.find?_of_mem hkeys hentry, h entry hentry⟩

/-- If the entries of a map are all bound in a map of the same length, so are those of the other in it. -/
theorem allBound_swap {entries others : Entries Value} (hkeys : Entries.Distinct entries)
    (hothers : Entries.Distinct others) (hlength : entries.length = others.length)
    (hsymm : ∀ entry ∈ entries, ∀ other ∈ others, eq entry.2 other.2 = eq other.2 entry.2)
    (h : allBound eq entries others) : allBound eq others entries := by
  rw [allBound_iff]
  intro other hother
  have hswap : ∀ entry ∈ entries, ∀ other ∈ others,
      eq entry.2 other.2 = true → eq other.2 entry.2 = true := by
    intro entry hentry other hother heq
    rwa [← hsymm entry hentry other hother]
  have hfound : Option.Rel (fun v w => eq w v = true) (Entries.find? other.1 entries)
      (Entries.find? other.1 others) := rel_of_allBound hkeys hlength h hswap other.1
  exact exists_of_rel (rel_swap hfound) (Entries.find?_of_mem hothers hother)

/-- Maps of one length are compared in either direction: all keys of one are all keys of the other.
-/
theorem allBound_symm {entries others : Entries Value} (hkeys : Entries.Distinct entries)
    (hothers : Entries.Distinct others) (hlength : entries.length = others.length)
    (hsymm : ∀ entry ∈ entries, ∀ other ∈ others, eq entry.2 other.2 = eq other.2 entry.2) :
    allBound eq entries others = allBound eq others entries := by
  rw [Bool.eq_iff_iff]
  constructor
  · exact allBound_swap hkeys hothers hlength hsymm
  · refine allBound_swap hothers hkeys hlength.symm ?_
    intro other hother entry hentry
    exact (hsymm entry hentry other hother).symm

end

/-! ## Structural equality -/

section

variable {u v w : Value}

/-- The value itself is `nan`. -/
def isNan : Value → Bool
  | float x => x.isNan
  | _ => false

/-- Only `nan` and keys that are bound twice keep a value from equalling itself. -/
theorem isReflexive_of_not_isNan (hnan : !v.isNan) (hkeys : v.hasDistinctKeys) : v.isReflexive := by
  cases v with
  | float _ => exact hnan
  | map _ => exact hkeys
  | _ => rfl

/-- **A value is the same as itself exactly when no part of it is `nan`.** -/
theorem same_self_iff (hv : v.all hasDistinctKeys) : v.same v ↔ v.all fun part => !part.isNan := by
  constructor
  · intro h
    refine all_of_imp (fun part hpart => ?_) (corresponds_of_same hv hv h).1
    cases part with
    | float _ => exact hpart
    | _ => rfl
  · intro h
    refine same_self (all_of_imp (fun part hpart => ?_) (all_and h hv))
    obtain ⟨hnan, hkeys⟩ := Bool.and_eq_true_iff.1 hpart
    exact isReflexive_of_not_isNan hnan hkeys

/-- Of values that are the same, one can be put for the other on the left. -/
theorem same_left (hu : u.all hasDistinctKeys) (hv : v.all hasDistinctKeys)
    (hw : w.all hasDistinctKeys) (h : u.same v) : u.same w = v.same w :=
  (corresponds_of_same hu hv h).2.same_congr identified_views (.refl identified_views.refl hw)

/-- Sameness goes from right to left as it goes from left to right. -/
theorem same_swap (hv : v.all hasDistinctKeys) (hw : w.all hasDistinctKeys) (h : v.same w) :
    w.same v := by
  rw [← same_left hv hw hv h]
  exact same_self (corresponds_of_same hv hw h).1

/-- **Sameness is symmetric.** -/
theorem same_symm (hv : v.all hasDistinctKeys) (hw : w.all hasDistinctKeys) :
    v.same w = w.same v := by
  rw [Bool.eq_iff_iff]
  constructor
  · exact same_swap hv hw
  · exact same_swap hw hv

/-- What is the same as a value with finite numbers only has finite numbers only. -/
theorem isOrdinary_of_same (hv : v.all hasDistinctKeys) (hw : w.all hasDistinctKeys) (h : v.same w)
    (hordinary : v.all isOrdinary) : w.all isOrdinary := by
  obtain ⟨_, hcorresponds⟩ := corresponds_of_same hw hv (same_swap hv hw h)
  refine Corresponds.all (p := isOrdinary) (fun w v _ h hv => ?_) (fun _ => rfl) (fun _ _ => rfl)
    (fun _ _ => rfl) hcorresponds hordinary
  rwa [isOrdinary_of_identified h]

/-- **Sameness is transitive.** -/
theorem same_trans (hu : u.all hasDistinctKeys) (hv : v.all hasDistinctKeys)
    (hw : w.all hasDistinctKeys) (h : u.same v) (h' : v.same w) : u.same w := by
  rwa [same_left hu hv hw h]

end

/-! ## Equality across forms -/

section

variable {v w : Value}

theorem hasDistinctKeys_of_isLeaf (h : v.isLeaf) : v.all hasDistinctKeys := by
  cases v with
  | list _ | map _ | node _ _ => cases h
  | _ => rfl

/-- Leaves are compared in either direction. -/
theorem looselyEqualLeaves_symm (hv : v.isLeaf) (hw : w.isLeaf) :
    v.looselyEqualLeaves w = w.looselyEqualLeaves v := by
  -- numbers are compared through binary64 unless both are decimals, all else as by `same`
  have hsame : v.same w = w.same v :=
    same_symm (hasDistinctKeys_of_isLeaf hv) (hasDistinctKeys_of_isLeaf hw)
  cases v with
  | list _ | map _ | node _ _ => cases hv
  | integer _ | float _ =>
      cases w with
      | integer _ | float _ | decimal _ => exact Binary64.eq_symm _ _
      | _ => exact hsame
  | decimal _ =>
      cases w with
      | integer _ | float _ => exact Binary64.eq_symm _ _
      | _ => exact hsame
  | _ => cases w <;> exact hsame

/-- A leaf equals itself loosely if it does strictly. -/
theorem looselyEqualLeaves_self (hleaf : v.isLeaf) (h : v.isReflexive) :
    v.looselyEqualLeaves v := by
  have hsame : v.same v := same_self (all_of_isLeaf hleaf h)
  cases v with
  | list _ | map _ | node _ _ => cases hleaf
  | integer i => exact Binary64.eq_iff_rank?.2 ⟨rfl, Binary64.isNan_ofInt _⟩
  | float _ => exact eq_self_of_isReflexive h
  | _ => exact hsame

/-- Maps are compared in either direction, if their values are. -/
theorem looselyEqual_map_symm {entries others : Entries Value} (hkeys : Entries.Distinct entries)
    (hothers : Entries.Distinct others)
    (hsymm : ∀ entry ∈ entries, ∀ other ∈ others,
      entry.2.looselyEqual other.2 = other.2.looselyEqual entry.2) :
    (map entries).looselyEqual (map others) = (map others).looselyEqual (map entries) := by
  rw [looselyEqual, looselyEqual, looselyEqualEntries_eq_allBound, looselyEqualEntries_eq_allBound]
  by_cases hlength : entries.length = others.length
  · rw [allBound_symm hkeys hothers hlength hsymm, hlength]
  · rw [decide_eq_false hlength, decide_eq_false (Ne.symm hlength)]
    rfl

/-- Equality across forms does not depend on the order of the two values. -/
theorem looselyEqual_symm (hv : v.all hasDistinctKeys) (hw : w.all hasDistinctKeys) :
    v.looselyEqual w = w.looselyEqual v := by
  have hother {v w : Value} (hne : v.shape ≠ w.shape) : v.looselyEqual w = w.looselyEqual v := by
    rw [looselyEqual_of_shape_ne hne, looselyEqual_of_shape_ne hne.symm]
  -- the shapes agree or neither direction is an equality, so only the diagonal is left
  induction v, hv using all_induction generalizing w with
  | leaf v _ hleaf =>
      by_cases hw' : w.isLeaf
      · rw [looselyEqual_of_isLeaf (.inl hleaf), looselyEqual_of_isLeaf (.inl hw'),
          looselyEqualLeaves_symm hleaf hw']
      · refine hother ?_
        rw [shape_of_isLeaf hleaf]
        cases w with
        | list _ | map _ | node _ _ =>
            intro hshape
            cases hshape
        | _ => exact absurd rfl hw'
  | list items _ ih =>
      cases w with
      | list others =>
          rw [looselyEqual, looselyEqual, looselyEqualItems_eq_isEqv, looselyEqualItems_eq_isEqv]
          exact isEqv_symm fun v hv w hw' => ih v hv ((all_list.1 hw).2 w hw')
      | _ => exact hother fun hshape => by cases hshape
  | map entries hv ih =>
      cases w with
      | map others =>
          obtain ⟨hkeys, hothers⟩ := all_map.1 hw
          exact looselyEqual_map_symm (of_decide_eq_true (holds_of_all hv)) (of_decide_eq_true hkeys)
            fun entry hentry other hother => ih entry hentry (hothers other hother)
      | _ => exact hother fun hshape => by cases hshape
  | node op operands hv _ =>
      cases w with
      | node op' others => exact same_symm hv hw
      | _ => exact hother fun hshape => by cases hshape

/-- A value without `nan` is equal to itself. -/
theorem looselyEqual_self (h : v.all isReflexive) : v.looselyEqual v := by
  induction v, h using all_induction with
  | leaf v h hleaf =>
      rw [looselyEqual_of_isLeaf (.inl hleaf)]
      exact looselyEqualLeaves_self hleaf (holds_of_all h)
  | list items _ ih =>
      rw [looselyEqual, looselyEqualItems_eq_isEqv]
      exact isEqv_self ih
  | map entries h ih =>
      rw [looselyEqual, looselyEqualEntries_eq_allBound, decide_eq_true rfl, Bool.true_and]
      exact allBound_self (of_decide_eq_true (holds_of_all h)) ih
  | node op operands h _ => exact same_self h

/-- Values that are the same are equal across forms. -/
theorem looselyEqual_of_same (hv : v.all hasDistinctKeys) (hw : w.all hasDistinctKeys)
    (h : v.same w) : v.looselyEqual w := by
  obtain ⟨hreflexive, hcorresponds⟩ := corresponds_of_same hv hw h
  have hself : Corresponds Identified v v := .refl identified_views.refl hv
  rw [← hself.looselyEqual_congr identified_views hcorresponds]
  exact looselyEqual_self hreflexive

end

/-- **The laws of the two equalities.**  `same` is symmetric and transitive, and fails to be reflexive for
`nan` only; `looselyEqual` is symmetric and coarser. -/
theorem equality_laws {u v w : Value} (hu : u.all hasDistinctKeys) (hv : v.all hasDistinctKeys)
    (hw : w.all hasDistinctKeys) :
    (u.same v = v.same u) ∧ (u.same v → v.same w → u.same w) ∧
      (u.same u ↔ u.all fun part => !part.isNan) ∧
      (u.looselyEqual v = v.looselyEqual u) ∧ (u.same v → u.looselyEqual v) := by
  refine ⟨same_symm hu hv, ?_, same_self_iff hu, looselyEqual_symm hu hv, ?_⟩
  · intro huv hvw
    exact same_trans hu hv hw huv hvw
  · intro huv
    exact looselyEqual_of_same hu hv huv

/-- Zeros of three forms and one decimal of three scales, in maps that differ in the order of their
entries. -/
theorem equality_laws_zeros :
    let call : Value := node .not [boolean true]
    let u : Value := map [("a", float (.zero true)), ("d", decimal ⟨150, 2⟩), ("n", call)]
    let v : Value := map [("d", decimal ⟨15, 1⟩), ("a", integer 0), ("n", call)]
    let w : Value := map [("n", call), ("a", float (.zero false)), ("d", decimal ⟨1500, 3⟩)]
    (u.all hasDistinctKeys ∧ v.all hasDistinctKeys ∧ w.all hasDistinctKeys) ∧
      (u.same v ∧ v.same w) ∧
      (u.same v = v.same u) ∧ (u.same v → v.same w → u.same w) ∧
        (u.same u ↔ u.all fun part => !part.isNan) ∧
        (u.looselyEqual v = v.looselyEqual u) ∧ (u.same v → u.looselyEqual v) := by
  intro call u v w
  have hu : u.all hasDistinctKeys := by decide
  have hv : v.all hasDistinctKeys := by decide
  have hw : w.all hasDistinctKeys := by decide
  exact ⟨⟨hu, hv, hw⟩, ⟨by decide +kernel, by decide +kernel⟩, equality_laws hu hv hw⟩

end Value

end Latent

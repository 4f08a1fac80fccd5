import Latent.Proofs.Binary64.Decimals
import Latent.Proofs.Binary64.Ranks
import Latent.Proofs.Value.Correspondence
import Mathlib.Data.List.Perm.Subperm

/-!
# Values that are the same

`same` takes a whole number and the binary64 number equal to it, the two zeros, and decimals of one value
for the same.  Each leaf has a *canonical* form that decides this, and values that are the same
correspond with leaves of one canonical form.  No view that operators have of a value tells such leaves
apart, but for the key that a number spells: `-0` is not `0`.
-/

namespace Latent

namespace Value

/-! ## Canonical leaves -/

/-- A leaf with a number brought into the one form that it shares with the numbers that are the same. -/
def canonicalLeaf : Value → Value
  | decimal d => decimal d.reduce
  | v => normalLeaf v

/-- Leaves with one canonical form. -/
def Identified (v w : Value) : Prop := canonicalLeaf v = canonicalLeaf w

/-- Either zero is the whole number zero. -/
theorem toInt64?_zero (negative : Bool) : (Binary64.zero negative).toInt64? = some 0 :=
  Binary64.toInt64?_eq_some_iff.2 (Binary64.toInt?_zero negative)

/-- A number is its own canonical form unless it equals a 64-bit whole number. -/
theorem canonicalLeaf_float (x : Binary64) :
    canonicalLeaf (float x) = match x.toInt64? with
      | some i => integer i
      | none => float x := rfl

/-- Negative zero becomes the whole number zero. -/
theorem canonicalLeaf_zero : canonicalLeaf (float (.zero true)) = integer 0 := by
  rw [canonicalLeaf_float, toInt64?_zero]

/-- A float is identified with the whole number that it is. -/
theorem canonicalLeaf_eq_integer_iff {x : Binary64} {i : Int64} :
    canonicalLeaf (float x) = integer i ↔ x.toInt64? = some i := by
  rw [canonicalLeaf_float]
  cases x.toInt64? <;> simp

/-- Negative zero apart, a binary64 number becomes its settled form. -/
theorem canonicalLeaf_eq_settledLeaf {x : Binary64} (h : x ≠ .zero true) :
    canonicalLeaf (float x) = settledLeaf (float x) := (if_neg h).symm

/-- Identified numbers have one place. -/
theorem rank?_canonicalLeaf (x : Binary64) :
    (canonicalLeaf (float x)).toBinary64?.map Binary64.rank? = some x.rank? := by
  rw [canonicalLeaf_float]
  cases h : x.toInt64? with
  | none => rfl
  | some i => exact congrArg some (Binary64.rank?_ofInt (Binary64.toInt64?_eq_some_iff.1 h))

/-- Numbers have one canonical form exactly when they have one rank. -/
theorem identified_float_iff {x y : Binary64} :
    Identified (float x) (float y) ↔ x.rank? = y.rank? := by
  constructor
  · intro h
    refine Option.some.inj ?_
    rw [← rank?_canonicalLeaf, ← rank?_canonicalLeaf, h]
  · refine Binary64.view_of_rank? (fun x => canonicalLeaf (float x)) ?_
    rw [canonicalLeaf_float, canonicalLeaf_float, toInt64?_zero, toInt64?_zero]

/-- A binary64 number shares its canonical form with binary64 and whole numbers only. -/
theorem exists_of_identified_float {x : Binary64} {v : Value} (h : Identified (float x) v) :
    (∃ y, v = float y) ∨ ∃ i, v = integer i := by
  cases v with
  | float y => exact .inl ⟨y, rfl⟩
  | integer i => exact .inr ⟨i, rfl⟩
  | _ =>
      rw [Identified, canonicalLeaf_float] at h
      cases hx : x.toInt64? <;> rw [hx] at h <;> cases h

/-- A decimal is identified with decimals of its value only. -/
theorem exists_of_identified_decimal {d : Decimal} {v : Value} (h : Identified (decimal d) v) :
    ∃ e, v = decimal e ∧ d.reduce = e.reduce := by
  cases v with
  | decimal e => exact ⟨e, rfl, Value.decimal.inj h⟩
  | float x => rcases exists_of_identified_float (Eq.symm h) with ⟨_, h⟩ | ⟨_, h⟩ <;> cases h
  | _ => cases h

/-- **Leaves are the same exactly when they have one canonical form**, `nan` aside. -/
theorem same_iff_of_isLeaf {v w : Value} (hv : v.isLeaf) (hw : w.isLeaf) :
    v.same w ↔ v.isReflexive ∧ Identified v w := by
  have hreflexive {x : Binary64} {i : Int64} (h : x.toInt64? = some i) : (float x).isReflexive := by
    cases x with
    | nan | infinite _ => cases h
    | finite _ _ _ => rfl
  -- only floats and integers have the canonical form of another constructor
  cases v with
  | list _ | map _ | node _ _ => cases hv
  | float x =>
      cases w with
      | list _ | map _ | node _ _ => cases hw
      | float y =>
          rw [same, Binary64.eq_iff_rank?, identified_float_iff, isReflexive, Bool.not_eq_true', and_comm]
      | integer j =>
          rw [same, decide_eq_true_eq, ← canonicalLeaf_eq_integer_iff]
          exact ⟨fun h => ⟨hreflexive (canonicalLeaf_eq_integer_iff.1 h), h⟩, And.right⟩
      | _ =>
          refine iff_of_false Bool.false_ne_true fun h => ?_
          rcases exists_of_identified_float h.2 with ⟨_, h⟩ | ⟨_, h⟩ <;> cases h
  | integer i =>
      cases w with
      | list _ | map _ | node _ _ => cases hw
      | float y =>
          rw [same, decide_eq_true_eq, ← canonicalLeaf_eq_integer_iff]
          exact ⟨fun h => ⟨rfl, h.symm⟩, fun h => h.2.symm⟩
      | _ => simp [same, isReflexive, Identified, canonicalLeaf, normalLeaf]
  | _ =>
      cases w with
      | list _ | map _ | node _ _ => cases hw
      | float y =>
          refine iff_of_false Bool.false_ne_true fun h => ?_
          rcases exists_of_identified_float (Eq.symm h.2) with ⟨_, h⟩ | ⟨_, h⟩ <;> cases h
      | _ => simp [same, isReflexive, Identified, canonicalLeaf, normalLeaf, Decimal.sameValue]

/-! ## Views of leaves with one canonical form -/

/-- What does not see the settled form of numbers, the sign of zero and the scale of decimals does not
tell leaves with one canonical form apart. -/
theorem view_of_identified {α : Type} (view : Value → α)
    (hsettled : ∀ x, view (settledLeaf (float x)) = view (float x))
    (hzero : view (integer 0) = view (float (.zero true)))
    (hdecimal : ∀ d e : Decimal, d.reduce = e.reduce → view (decimal d) = view (decimal e))
    {v w : Value} (h : Identified v w) : view v = view w := by
  have hcanonical {v : Value} (hv : ¬∃ d, v = decimal d) : view (canonicalLeaf v) = view v := by
    cases v with
    | float x =>
        by_cases hx : x = Binary64.zero true
        · rw [hx, canonicalLeaf_zero, hzero]
        · rw [canonicalLeaf_eq_settledLeaf hx, hsettled]
    | decimal d => exact absurd ⟨d, rfl⟩ hv
    | _ => rfl
  by_cases hv : ∃ d, v = decimal d
  · obtain ⟨d, rfl⟩ := hv
    obtain ⟨e, rfl, hreduce⟩ := exists_of_identified_decimal h
    exact hdecimal d e hreduce
  · have hw : ¬∃ e, w = decimal e := by
      rintro ⟨e, rfl⟩
      obtain ⟨d, hd, _⟩ := exists_of_identified_decimal (Eq.symm h)
      exact hv ⟨d, hd⟩
    rw [← hcanonical hv, ← hcanonical hw, h]

/-- Zero has the place of negative zero. -/
theorem rank?_ofInt_zero :
    (Binary64.ofInt (0 : Int64).toInt).rank? = (Binary64.zero true).rank? :=
  Binary64.rank?_ofInt (Binary64.toInt?_zero true)

/-- Loose equality does not tell identified values apart, on the left. -/
theorem looselyEqualLeaves_left {v v' : Value} (h : Identified v v') (w : Value) :
    v.looselyEqualLeaves w = v'.looselyEqualLeaves w := by
  refine view_of_identified (·.looselyEqualLeaves w) (fun x => ?_) ?_ (fun d e hreduce => ?_) h
  · exact view_settledLeaf (·.looselyEqualLeaves w) (fun i _ => looselyEqualLeaves_ofInt_left i w) _
  · cases w with
    | integer _ | float _ | decimal _ => exact Binary64.eq_congr rank?_ofInt_zero rfl
    | _ => rfl
  · cases w with
    | decimal f => exact congrArg (decide <| · = f.reduce) hreduce
    | integer _ | float _ => exact congrArg (Binary64.eq · _) (Decimal.toBinary64_congr hreduce)
    | _ => rfl

/-- Nor on the right. -/
theorem looselyEqualLeaves_right (v : Value) {w w' : Value} (h : Identified w w') :
    v.looselyEqualLeaves w = v.looselyEqualLeaves w' := by
  refine view_of_identified v.looselyEqualLeaves (fun x => ?_) ?_ (fun d e hreduce => ?_) h
  · exact view_settledLeaf v.looselyEqualLeaves (fun i _ => looselyEqualLeaves_ofInt_right i v) _
  · cases v with
    | integer _ | float _ | decimal _ => exact Binary64.eq_congr rfl rank?_ofInt_zero
    | _ => rfl
  · cases v with
    | decimal f => exact congrArg (decide <| f.reduce = ·) hreduce
    | integer _ | float _ => exact congrArg (Binary64.eq _) (Decimal.toBinary64_congr hreduce)
    | _ => rfl

/-- None of the leaves with one canonical form is `nan`, or all of them are. -/
theorem isReflexive_of_identified {v v' : Value} (h : Identified v v') :
    v.isReflexive = v'.isReflexive := by
  refine view_of_identified isReflexive (fun x => view_settledLeaf isReflexive (fun i hexact => ?_) _)
    rfl (fun _ _ _ => rfl) h
  rw [Binary64.ofInt_of_isExact hexact]
  rfl

/-- No infinity has the canonical form of another number. -/
theorem isOrdinary_of_identified {v v' : Value} (h : Identified v v') : v.isOrdinary = v'.isOrdinary := by
  refine view_of_identified isOrdinary (fun x => view_settledLeaf isOrdinary (fun i hexact => ?_) _)
    rfl (fun _ _ _ => rfl) h
  rw [Binary64.ofInt_of_isExact hexact]
  rfl

/-- **Leaves with one canonical form are not told apart by a view of operators.** -/
theorem identified_views : LeafViews Identified where
  refl _ _ := rfl
  isTruthy _ _ := view_of_identified isTruthy (fun x => isTruthy_settled (float x)) rfl
    fun d e hreduce => by
      rw [isTruthy, isTruthy, ← Decimal.isZero_reduce, hreduce, Decimal.isZero_reduce]
  toText? _ _ :=
    view_of_identified Value.toText? (fun x => toText?_settled (float x)) rfl fun _ _ _ => rfl
  length? _ _ :=
    view_of_identified Value.length? (fun x => length?_settled (float x)) rfl fun _ _ _ => rfl
  rank? _ _ := view_of_identified (fun v => v.toBinary64?.map Binary64.rank?)
    (fun x => congrArg (Option.map Binary64.rank?) (toBinary64?_settled (float x)))
    (congrArg some rank?_ofInt_zero)
    fun _ _ hreduce => congrArg (fun x : Binary64 => some x.rank?) (Decimal.toBinary64_congr hreduce)
  ordinal? _ _ := view_of_identified (fun v => v.ordinal?.map Binary64.rank?)
    (fun x => congrArg (Option.map Binary64.rank?) (ordinal?_settled (float x)))
    (congrArg some rank?_ofInt_zero)
    fun _ _ hreduce => congrArg (fun x : Binary64 => some x.rank?) (Decimal.toBinary64_congr hreduce)
  startDate scope _ _ := view_of_identified scope.startDate
    (fun x => view_settledLeaf scope.startDate (fun _ _ => rfl) (float x)) rfl fun _ _ _ => rfl
  startTime scope _ _ := view_of_identified scope.startTime
    (fun x => view_settledLeaf scope.startTime (fun _ _ => rfl) (float x)) rfl fun _ _ _ => rfl
  same v v' w w' hv hv' hw hw' h h' := by
    rw [Bool.eq_iff_iff, same_iff_of_isLeaf hv hw, same_iff_of_isLeaf hv' hw',
      isReflexive_of_identified h, Identified, Identified, h, h']
  looselyEqual v v' w w' _ _ _ _ h h' := by
    rw [looselyEqualLeaves_left h, looselyEqualLeaves_right v' h']

/-! ## Values that are the same -/

/-- Lists that are equal item by item have related items in their places. -/
theorem forall₂_of_isEqv {eq : Value → Value → Bool} {r : Value → Value → Prop}
    {items others : List Value} (h : items.isEqv others eq)
    (hstep : ∀ v ∈ items, ∀ w ∈ others, eq v w → r v w) : List.Forall₂ r items others := by
  induction items generalizing others with
  | nil =>
      cases others with
      | nil => exact .nil
      | cons other others => cases h
  | cons item rest ih =>
      cases others with
      | nil => cases h
      | cons other others =>
          obtain ⟨hitem, hrest⟩ := Bool.and_eq_true_iff.1 h
          exact .cons (hstep item List.mem_cons_self other List.mem_cons_self hitem)
            (ih hrest fun v hv w hw => hstep v (List.mem_cons_of_mem _ hv) w (List.mem_cons_of_mem _ hw))

/-- A map whose entries are all bound in another of the same length binds every key of the other. -/
theorem mem_keys_of_allBound {eq : Value → Value → Bool} {entries others : Entries Value}
    (hkeys : Entries.Distinct entries) (hlength : entries.length = others.length)
    (h : allBound eq entries others) {key : String} (hkey : key ∈ Entries.keys others) :
    key ∈ Entries.keys entries := by
  have hsubset : Entries.keys entries ⊆ Entries.keys others := by
    intro key hkey
    obtain ⟨entry, hentry, rfl⟩ := List.mem_map.1 hkey
    obtain ⟨w, hfind, _⟩ := allBound_iff.1 h entry hentry
    exact List.mem_map.2 ⟨_, Entries.mem_of_find? hfind, rfl⟩
  -- keys of their own that are all among as many others are all of them
  have hperm : (Entries.keys entries).Perm (Entries.keys others) := by
    refine (List.subperm_of_subset hkeys hsubset).perm_of_length_le ?_
    rw [Entries.keys, Entries.keys, List.length_map, List.length_map, hlength]
  exact hperm.mem_iff.2 hkey

/-- Entries that are equal key by key are related key by key. -/
theorem rel_of_allBound {eq : Value → Value → Bool} {r : Value → Value → Prop}
    {entries others : Entries Value} (hkeys : Entries.Distinct entries)
    (hlength : entries.length = others.length) (h : allBound eq entries others)
    (hstep : ∀ entry ∈ entries, ∀ other ∈ others, eq entry.2 other.2 → r entry.2 other.2)
    (key : String) : Option.Rel r (Entries.find? key entries) (Entries.find? key others) := by
  cases hv : Entries.find? key entries with
  | some v =>
      have hmem := Entries.mem_of_find? hv
      obtain ⟨w, hw, hvw⟩ := allBound_iff.1 h (key, v) hmem
      rw [hw]
      exact .some (hstep (key, v) hmem (key, w) (Entries.mem_of_find? hw) hvw)
  | none =>
      cases hw : Entries.find? key others with
      | none => exact .none
      | some w =>
          have hkey := mem_keys_of_allBound hkeys hlength h
            (Entries.isSome_find?_iff.1 (Option.isSome_of_eq_some hw))
          rw [← Entries.isSome_find?_iff, hv] at hkey
          cases hkey

/-- The value is without `nan` and corresponds to the other one, with leaves of one canonical form. -/
def Mirrors (v w : Value) : Prop := v.all isReflexive ∧ Corresponds Identified v w

section

variable {items others : List Value}

/-- Items that are the same mirror each other if each does. -/
theorem mirrors_items (h : sameItems items others)
    (ih : ∀ v ∈ items, ∀ w ∈ others, v.same w → v.Mirrors w) :
    (∀ v ∈ items, v.all isReflexive) ∧ List.Forall₂ (Corresponds Identified) items others := by
  rw [sameItems_eq_isEqv] at h
  exact (List.forall₂_and_left _ _).1 (forall₂_of_isEqv h ih)

/-- Lists that are the same mirror each other if their items do. -/
theorem mirrors_list (h : (list items).same (list others))
    (ih : ∀ v ∈ items, ∀ w ∈ others, v.same w → v.Mirrors w) : (list items).Mirrors (list others) := by
  rw [same] at h
  obtain ⟨hreflexive, hparts⟩ := mirrors_items h ih
  exact ⟨all_list.2 ⟨rfl, hreflexive⟩, .list hparts⟩

/-- Nodes that are the same have one operator, and mirror each other if their operands do. -/
theorem mirrors_node {op op' : Operator} (h : (node op items).same (node op' others))
    (ih : ∀ v ∈ items, ∀ w ∈ others, v.same w → v.Mirrors w) :
    (node op items).Mirrors (node op' others) := by
  rw [same, Bool.and_eq_true, decide_eq_true_eq] at h
  obtain ⟨rfl, hitems⟩ := h
  obtain ⟨hreflexive, hparts⟩ := mirrors_items hitems ih
  exact ⟨all_node.2 ⟨rfl, hreflexive⟩, .node op hparts⟩

end

/-- Maps that are the same bind the same keys, and mirror each other if what they bind does. -/
theorem mirrors_map {entries others : Entries Value} (hkeys : Entries.Distinct entries)
    (hothers : Entries.Distinct others) (h : (map entries).same (map others))
    (ih : ∀ entry ∈ entries, ∀ other ∈ others, entry.2.same other.2 → entry.2.Mirrors other.2) :
    (map entries).Mirrors (map others) := by
  rw [same, sameEntries_eq_allBound, Bool.and_eq_true, decide_eq_true_eq] at h
  obtain ⟨hlength, hall⟩ := h
  have hparts := rel_of_allBound (r := Mirrors) hkeys hlength hall ih
  refine ⟨all_map.2 ⟨decide_eq_true hkeys, fun entry hentry => ?_⟩,
    .map hkeys hothers hlength fun key => rel_imp (fun _ _ _ _ => And.right) (hparts key)⟩
  obtain ⟨_, _, hreflexive, _⟩ := exists_of_rel (hparts entry.1) (Entries.find?_of_mem hkeys hentry)
  exact hreflexive

/-- **Values that are the same are without `nan` and correspond**, with leaves of one canonical form. -/
theorem corresponds_of_same {v w : Value} (hv : v.all hasDistinctKeys) (hw : w.all hasDistinctKeys)
    (h : v.same w) : v.all isReflexive ∧ Corresponds Identified v w := by
  -- a value that is the same has the same shape, and its parts are the same
  induction v, hv using all_induction generalizing w with
  | leaf v _ hleaf =>
      have hshape := shape_of_isLeaf hleaf
      cases w with
      | list _ | map _ | node _ _ =>
          rw [same_of_shape_ne (by rw [hshape]; exact nofun)] at h
          cases h
      | _ =>
          obtain ⟨hreflexive, hidentified⟩ := (same_iff_of_isLeaf hleaf rfl).1 h
          exact ⟨all_of_isLeaf hleaf hreflexive, .leaf hleaf rfl hidentified⟩
  | list items _ ih =>
      cases w with
      | list others => exact mirrors_list h fun v hv w hw' => ih v hv ((all_list.1 hw).2 w hw')
      | _ => cases h
  | map entries hv ih =>
      cases w with
      | map others =>
          obtain ⟨hkeys', hothers⟩ := all_map.1 hw
          exact mirrors_map (of_decide_eq_true (holds_of_all hv)) (of_decide_eq_true hkeys') h
            fun entry hentry other hother => ih entry hentry (hothers other hother)
      | _ => cases h
  | node op operands _ ih =>
      cases w with
      | node op' others => exact mirrors_node h fun v hv w hw' => ih v hv ((all_node.1 hw).2 w hw')
      | _ => cases h

/-- A value without `nan` binds no key twice. -/
theorem hasDistinctKeys_of_isReflexive {v : Value} (h : v.all isReflexive) : v.all hasDistinctKeys := by
  refine all_of_imp (fun v hv => ?_) h
  cases v with
  | map entries => exact hv
  | _ => rfl

/-- Corresponding values are the same if they are without `nan`. -/
theorem same_of_corresponds {v w : Value} (hreflexive : v.all isReflexive)
    (h : Corresponds Identified v w) : v.same w := by
  have hself : Corresponds Identified v v :=
    .refl identified_views.refl (hasDistinctKeys_of_isReflexive hreflexive)
  rw [← Corresponds.same_congr identified_views hself h]
  exact same_self hreflexive

end Value

end Latent

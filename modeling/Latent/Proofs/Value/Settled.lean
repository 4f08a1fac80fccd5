import Latent.Evaluate
import Latent.Proofs.Value.PlainForm

/-!
# Values up to the form of their numbers

A binary64 number may equal a whole number of 64 bits.  In the *settled* form of a value it is replaced
by that number.  What operators look at — truth, order, equality, length, keys, texts — is the same for a
value and its settled form.  Negative zero is not replaced, because it spells a key of its own, `-0`.

`Alike` values have one settled form.  In the `normal` form negative zero is zero as well.
-/

namespace Latent

/-- A 64-bit whole number that some number equals. -/
theorem Binary64.toInt64?_eq_some_iff {x : Binary64} {i : Int64} :
    x.toInt64? = some i ↔ x.toInt? = some i.toInt := by
  unfold Binary64.toInt64?
  constructor
  · intro h
    obtain ⟨j, hj, hi⟩ := Option.bind_eq_some_iff.1 h
    rw [hj, toInt_of_int64? hi]
  · intro h
    rw [h, Option.bind_some, int64?_toInt]

/-- An exact whole number has the canonical text of the whole number. -/
theorem Binary64.canonicalText_ofInt {i : Int} (h : Binary64.IsExact i) :
    (Binary64.ofInt i).canonicalText = intText i := by
  have hint := Binary64.toInt?_ofInt h
  rw [Binary64.ofInt_of_isExact h] at hint ⊢
  rw [Binary64.canonicalText, hint, intText]
  simp only [decide_eq_true_eq]

namespace Value

/-! ## The settled form -/

/-- A leaf with a binary64 number, if it is not negative zero, replaced by the 64-bit whole number that
it equals. -/
def settledLeaf : Value → Value
  | float x =>
    if x = Binary64.zero true then float x
    else match x.toInt64? with
      | some i => integer i
      | none => float x
  | v => v

/-- The value with every leaf settled. -/
def settled (v : Value) : Value := v.mapLeaves settledLeaf

/-- Values with the same settled form. -/
def Alike (v w : Value) : Prop := v.settled = w.settled

/-- The items of a list are settled. -/
@[simp] theorem settled_list (items : List Value) : (list items).settled = list (items.map settled) :=
  mapLeaves_list items

/-- So are the values of a map. -/
@[simp] theorem settled_map (entries : Entries Value) :
    (map entries).settled = map (entries.map fun entry => (entry.1, entry.2.settled)) :=
  mapLeaves_map entries

/-- So are the operands of a node. -/
@[simp] theorem settled_node (op : Operator) (operands : List Value) :
    (node op operands).settled = node op (operands.map settled) :=
  mapLeaves_node op operands

/-- A leaf is settled as a whole. -/
theorem settled_leaf {v : Value} (h : v.isLeaf) : v.settled = settledLeaf v := mapLeaves_leaf h

/-- A leaf is settled, or it is the binary64 form of the whole number that it settles to. -/
theorem settledLeaf_eq (v : Value) : settledLeaf v = v ∨
    ∃ i : Int64, Binary64.IsExact i.toInt ∧ v = float (.ofInt i.toInt) ∧ settledLeaf v = integer i := by
  cases v with
  | float x =>
      by_cases hzero : x = Binary64.zero true
      · left
        rw [settledLeaf, if_pos hzero]
      · cases hi : x.toInt64? with
        | none =>
            left
            rw [settledLeaf, if_neg hzero, hi]
        | some i =>
            right
            have hint := Binary64.toInt64?_eq_some_iff.1 hi
            refine ⟨i, Binary64.isExact_of_toInt? hint, ?_, ?_⟩
            · rw [Binary64.ofInt_of_toInt? hint hzero]
            · rw [settledLeaf, if_neg hzero, hi]
  | _ => exact Or.inl rfl

/-- What does not tell a whole number from its binary64 form does not tell a leaf from its settled
form. -/
theorem view_settledLeaf {α : Type} (view : Value → α)
    (h : ∀ i : Int64, Binary64.IsExact i.toInt → view (integer i) = view (float (.ofInt i.toInt)))
    (v : Value) : view (settledLeaf v) = view v := by
  rcases settledLeaf_eq v with heq | ⟨i, hexact, hv, hi⟩
  · rw [heq]
  · rw [hi, hv, h i hexact]

/-- The same for a whole value, when the view does not look into its parts. -/
theorem view_settled {α : Type} {view : Value → α}
    (hfloat : ∀ i : Int64, Binary64.IsExact i.toInt →
      view (integer i) = view (float (.ofInt i.toInt)))
    (hlist : ∀ items, view (list (items.map settled)) = view (list items))
    (hmap : ∀ entries : Entries Value,
      view (map (entries.map fun entry => (entry.1, entry.2.settled))) = view (map entries))
    (hnode : ∀ op operands, view (node op (operands.map settled)) = view (node op operands))
    (v : Value) : view v.settled = view v := by
  cases v with
  | list items => rw [settled_list, hlist]
  | map entries => rw [settled_map, hmap]
  | node op operands => rw [settled_node, hnode]
  | _ => rw [settled_leaf rfl, view_settledLeaf view hfloat]

/-! ## Views of a settled value -/

/-- Settling keeps leaves apart from the rest. -/
theorem isLeaf_settled (v : Value) : v.settled.isLeaf = v.isLeaf :=
  view_settled (fun _ _ => rfl) (fun _ => rfl) (fun _ => rfl) (fun _ _ => rfl) v

/-- It keeps truth. -/
theorem isTruthy_settled (v : Value) : v.settled.isTruthy = v.isTruthy := by
  apply view_settled
  · intro i hexact
    have hzero : (i ≠ 0) = (i.toInt ≠ 0) := by
      rw [ne_eq, ne_eq, ← Int64.toInt_inj, Int64.toInt_zero]
    have hnan : (Binary64.ofInt i.toInt).isNan = false := by
      rw [Binary64.ofInt_of_isExact hexact]
      rfl
    rw [isTruthy, isTruthy, Binary64.isZero_ofInt hexact, hnan]
    simp [hzero]
  · intro items
    cases items <;> rfl
  · intro entries
    cases entries <;> rfl
  · intro op operands
    rfl

theorem map_isTruthy_settled (items : List Value) :
    (items.map settled).map isTruthy = items.map isTruthy := by
  rw [List.map_map]
  exact List.map_congr_left fun item _ => isTruthy_settled item

theorem toBinary64?_settled (v : Value) : v.settled.toBinary64? = v.toBinary64? :=
  view_settled (fun _ _ => rfl) (fun _ => rfl) (fun _ => rfl) (fun _ _ => rfl) v

theorem ordinal?_settled (v : Value) : v.settled.ordinal? = v.ordinal? :=
  view_settled (fun _ _ => rfl) (fun _ => rfl) (fun _ => rfl) (fun _ _ => rfl) v

theorem toText?_settled (v : Value) : v.settled.toText? = v.toText? :=
  view_settled (fun _ _ => rfl) (fun _ => rfl) (fun _ => rfl) (fun _ _ => rfl) v

theorem length?_settled (v : Value) : v.settled.length? = v.length? := by
  apply view_settled
  · intro i _
    rfl
  · intro items
    exact congrArg some (List.length_map _)
  · intro entries
    exact congrArg some (List.length_map _)
  · intro op operands
    rfl

theorem asKey?_settled (v : Value) : v.settled.asKey? = v.asKey? := by
  apply view_settled
  · intro i hexact
    rw [asKey?, asKey?, Binary64.canonicalText_ofInt hexact]
  · exact fun _ => rfl
  · exact fun _ => rfl
  · exact fun _ _ => rfl

/-! ## Structural equality -/

section Same

variable {i : Int64} (hexact : Binary64.IsExact i.toInt)

include hexact

/-- An exact whole number is found in its float. -/
theorem toInt64?_ofInt : (Binary64.ofInt i.toInt).toInt64? = some i :=
  Binary64.toInt64?_eq_some_iff.2 (Binary64.toInt?_ofInt hexact)

/-- The binary64 form of a whole number equals what the whole number equals. -/
theorem same_ofInt_left (b : Value) :
    (integer i).same b = (float (.ofInt i.toInt)).same b := by
  cases b with
  | integer j =>
      rw [same, same, toInt64?_ofInt hexact]
      simp
  | float y =>
      rw [same, same, Binary64.eq_ofInt hexact]
      exact decide_eq_decide.2 Binary64.toInt64?_eq_some_iff
  | _ => rfl

/-- Nothing is the same as an exact whole number without being the same as its float. -/
theorem same_ofInt_right (a : Value) :
    a.same (integer i) = a.same (float (.ofInt i.toInt)) := by
  cases a with
  | integer j =>
      rw [same, same, toInt64?_ofInt hexact]
      simp [eq_comm]
  | float y =>
      rw [same, same, Binary64.eq_symm, Binary64.eq_ofInt hexact]
      exact decide_eq_decide.2 Binary64.toInt64?_eq_some_iff
  | _ => rfl

end Same

theorem same_settledLeaf_left (a b : Value) : (settledLeaf a).same b = a.same b :=
  view_settledLeaf (fun a => a.same b) (fun _ hexact => same_ofInt_left hexact b) a

theorem same_settledLeaf_right (a b : Value) : a.same (settledLeaf b) = a.same b :=
  view_settledLeaf (fun b => a.same b) (fun _ hexact => same_ofInt_right hexact a) b

/-- Items are the same once they are settled. -/
theorem sameItems_settled {items : List Value}
    (h : ∀ v ∈ items, ∀ w : Value, v.settled.same w.settled = v.same w) (others : List Value) :
    sameItems (items.map settled) (others.map settled) = sameItems items others := by
  induction items generalizing others with
  | nil => cases others <;> rfl
  | cons item rest ih =>
      cases others with
      | nil => rfl
      | cons other others =>
          rw [List.map_cons, List.map_cons, sameItems, sameItems, h item List.mem_cons_self,
            ih fun v hv => h v (List.mem_cons_of_mem _ hv)]

/-- Entries are the same once they are settled. -/
theorem sameEntries_settled {entries : Entries Value}
    (h : ∀ entry ∈ entries, ∀ w : Value, entry.2.settled.same w.settled = entry.2.same w)
    (others : Entries Value) :
    sameEntries (entries.map fun entry => (entry.1, entry.2.settled))
      (others.map fun entry => (entry.1, entry.2.settled)) = sameEntries entries others := by
  induction entries with
  | nil => rfl
  | cons entry rest ih =>
      rw [List.map_cons, sameEntries, sameEntries, Entries.find?_map,
        ih fun e he => h e (List.mem_cons_of_mem _ he)]
      cases Entries.find? entry.1 others with
      | none => rfl
      | some w =>
          have hentry := h entry List.mem_cons_self w
          simp only [Option.map_some, hentry]

/-- Structural equality does not see the form of numbers. -/
theorem same_settled (a b : Value) : a.settled.same b.settled = a.same b := by
  -- values of different constructors other than leaves are never the same, settled or not
  induction a using Value.induction generalizing b with
  | leaf a ha =>
      rw [settled_leaf ha, same_settledLeaf_left]
      cases b with
      | list items => rw [settled_list]; cases a <;> first | rfl | cases ha
      | map entries => rw [settled_map]; cases a <;> first | rfl | cases ha
      | node op operands => rw [settled_node]; cases a <;> first | rfl | cases ha
      | _ => rw [settled_leaf rfl, same_settledLeaf_right]
  | list items ih =>
      cases b with
      | list others => rw [settled_list, settled_list, same, same, sameItems_settled ih]
      | map entries => rw [settled_list, settled_map]; rfl
      | node op operands => rw [settled_list, settled_node]; rfl
      | _ => rw [settled_list, settled_leaf rfl, same_settledLeaf_right]; rfl
  | map entries ih =>
      cases b with
      | map others =>
          rw [settled_map, settled_map, same, same, sameEntries_settled ih, List.length_map,
            List.length_map]
      | list items => rw [settled_map, settled_list]; rfl
      | node op operands => rw [settled_map, settled_node]; rfl
      | _ => rw [settled_map, settled_leaf rfl, same_settledLeaf_right]; rfl
  | node op operands ih =>
      cases b with
      | node other others => rw [settled_node, settled_node, same, same, sameItems_settled ih]
      | list items => rw [settled_node, settled_list]; rfl
      | map entries => rw [settled_node, settled_map]; rfl
      | _ => rw [settled_node, settled_leaf rfl, same_settledLeaf_right]; rfl

/-! ## Equality across forms -/

/-- A whole number is compared as its float, on the left. -/
theorem looselyEqualLeaves_ofInt_left (i : Int64) (b : Value) :
    (integer i).looselyEqualLeaves b = (float (.ofInt i.toInt)).looselyEqualLeaves b := by
  cases b <;> rfl

/-- And on the right. -/
theorem looselyEqualLeaves_ofInt_right (i : Int64) (a : Value) :
    a.looselyEqualLeaves (integer i) = a.looselyEqualLeaves (float (.ofInt i.toInt)) := by
  cases a <;> rfl

/-- What is compared by its parts is compared structurally when it meets anything else. -/
theorem looselyEqualLeaves_eq_same {a b : Value} (h : a.isLeaf = false ∨ b.isLeaf = false) :
    a.looselyEqualLeaves b = a.same b := by
  rcases h with h | h
  · cases a with
    | list _ | map _ | node _ _ => cases b <;> rfl
    | _ => cases h
  · cases b with
    | list _ | map _ | node _ _ => cases a <;> rfl
    | _ => cases h

/-- Leaves compare as they do settled. -/
theorem looselyEqualLeaves_settled (a b : Value) :
    a.settled.looselyEqualLeaves b.settled = a.looselyEqualLeaves b := by
  by_cases h : a.isLeaf = false ∨ b.isLeaf = false
  · have h' : a.settled.isLeaf = false ∨ b.settled.isLeaf = false := by
      rwa [isLeaf_settled, isLeaf_settled]
    rw [looselyEqualLeaves_eq_same h, looselyEqualLeaves_eq_same h', same_settled]
  · simp only [not_or, Bool.not_eq_false] at h
    rw [settled_leaf h.1, settled_leaf h.2]
    calc (settledLeaf a).looselyEqualLeaves (settledLeaf b)
        = a.looselyEqualLeaves (settledLeaf b) :=
          view_settledLeaf (fun a => a.looselyEqualLeaves (settledLeaf b))
            (fun i _ => looselyEqualLeaves_ofInt_left i _) a
      _ = a.looselyEqualLeaves b :=
          view_settledLeaf (fun b => a.looselyEqualLeaves b)
            (fun i _ => looselyEqualLeaves_ofInt_right i _) b

/-- With a leaf on one side, leaves are compared. -/
theorem looselyEqual_of_isLeaf {a b : Value} (h : a.isLeaf ∨ b.isLeaf) :
    a.looselyEqual b = a.looselyEqualLeaves b := by
  rw [looselyEqual]
  · rintro items others rfl rfl
    rcases h with h | h <;> cases h
  · rintro entries others rfl rfl
    rcases h with h | h <;> cases h

/-- Items compare as they do settled. -/
theorem looselyEqualItems_settled {items : List Value}
    (h : ∀ v ∈ items, ∀ w : Value, v.settled.looselyEqual w.settled = v.looselyEqual w)
    (others : List Value) :
    looselyEqualItems (items.map settled) (others.map settled) = looselyEqualItems items others := by
  induction items generalizing others with
  | nil => cases others <;> rfl
  | cons item rest ih =>
      cases others with
      | nil => rfl
      | cons other others =>
          rw [List.map_cons, List.map_cons, looselyEqualItems, looselyEqualItems,
            h item List.mem_cons_self, ih fun v hv => h v (List.mem_cons_of_mem _ hv)]

/-- Entries compare as they do settled. -/
theorem looselyEqualEntries_settled {entries : Entries Value}
    (h : ∀ entry ∈ entries, ∀ w : Value,
      entry.2.settled.looselyEqual w.settled = entry.2.looselyEqual w) (others : Entries Value) :
    looselyEqualEntries (entries.map fun entry => (entry.1, entry.2.settled))
      (others.map fun entry => (entry.1, entry.2.settled)) = looselyEqualEntries entries others := by
  induction entries with
  | nil => rfl
  | cons entry rest ih =>
      rw [List.map_cons, looselyEqualEntries, looselyEqualEntries, Entries.find?_map,
        ih fun e he => h e (List.mem_cons_of_mem _ he)]
      cases Entries.find? entry.1 others with
      | none => rfl
      | some w =>
          have hentry := h entry List.mem_cons_self w
          simp only [Option.map_some, hentry]

/-- Equality across forms does not see the form of numbers. -/
theorem looselyEqual_settled (a b : Value) : a.settled.looselyEqual b.settled = a.looselyEqual b := by
  -- one leaf is enough for a comparison without a look at parts
  have hleaf {a b : Value} (h : a.isLeaf ∨ b.isLeaf) :
      a.settled.looselyEqual b.settled = a.looselyEqual b := by
    have h' : a.settled.isLeaf ∨ b.settled.isLeaf := by rwa [isLeaf_settled, isLeaf_settled]
    rw [looselyEqual_of_isLeaf h, looselyEqual_of_isLeaf h', looselyEqualLeaves_settled]
  induction a using Value.induction generalizing b with
  | leaf a ha => exact hleaf (Or.inl ha)
  | list items ih =>
      cases b with
      | list others =>
          rw [settled_list, settled_list, looselyEqual, looselyEqual, looselyEqualItems_settled ih]
      | map entries => rw [settled_list, settled_map]; rfl
      | node op operands => rw [settled_list, settled_node]; rfl
      | _ => exact hleaf (Or.inr rfl)
  | map entries ih =>
      cases b with
      | map others =>
          rw [settled_map, settled_map, looselyEqual, looselyEqual,
            looselyEqualEntries_settled ih, List.length_map, List.length_map]
      | list items => rw [settled_map, settled_list]; rfl
      | node op operands => rw [settled_map, settled_node]; rfl
      | _ => exact hleaf (Or.inr rfl)
  | node op operands _ =>
      cases b with
      | node other others =>
          have hleaves := looselyEqualLeaves_settled (node op operands) (node other others)
          rw [settled_node, settled_node] at hleaves ⊢
          exact hleaves
      | list items => rw [settled_node, settled_list]; rfl
      | map entries => rw [settled_node, settled_map]; rfl
      | _ => exact hleaf (Or.inr rfl)

/-! ## Alike values -/

namespace Alike

variable {v w : Value}

/-- A value is like itself. -/
theorem refl (v : Value) : Alike v v := rfl

/-- Alike values have the same views. -/
theorem view {α : Type} {f : Value → α} (h : Alike v w) (hf : ∀ v : Value, f v.settled = f v) :
    f v = f w := by
  have hsettled : v.settled = w.settled := h
  rw [← hf v, ← hf w, hsettled]

theorem isTruthy (h : Alike v w) : v.isTruthy = w.isTruthy := h.view isTruthy_settled

theorem toBinary64? (h : Alike v w) : v.toBinary64? = w.toBinary64? := h.view toBinary64?_settled

theorem ordinal? (h : Alike v w) : v.ordinal? = w.ordinal? := h.view ordinal?_settled

theorem toText? (h : Alike v w) : v.toText? = w.toText? := h.view toText?_settled

theorem length? (h : Alike v w) : v.length? = w.length? := h.view length?_settled

/-- Like values are equal to like values. -/
theorem looselyEqual {v' w' : Value} (h : Alike v w) (h' : Alike v' w') :
    v.looselyEqual v' = w.looselyEqual w' := by
  have hsettled : v.settled = w.settled := h
  have hsettled' : v'.settled = w'.settled := h'
  rw [← looselyEqual_settled v v', ← looselyEqual_settled w w', hsettled, hsettled']

end Alike

/-! ## The normal form -/

/-- A leaf with a binary64 number replaced by the 64-bit whole number that it equals. -/
def normalLeaf : Value → Value
  | float x =>
    match x.toInt64? with
    | some i => integer i
    | none => float x
  | v => v

/-- The value with every binary64 number replaced by the 64-bit whole number that it equals. -/
def normal (v : Value) : Value := v.mapLeaves normalLeaf

/-- Settling first does not change the normal form. -/
theorem normalLeaf_settledLeaf (v : Value) : normalLeaf (settledLeaf v) = normalLeaf v := by
  apply view_settledLeaf normalLeaf
  intro i hexact
  rw [normalLeaf, normalLeaf, toInt64?_ofInt hexact]
  exact fun x h => by cases h

theorem isLeaf_settledLeaf {v : Value} (h : v.isLeaf) : (settledLeaf v).isLeaf := by
  rw [← settled_leaf h, isLeaf_settled, h]

/-- Settled or not, the normal form is the same. -/
theorem normal_settled (v : Value) : v.settled.normal = v.normal := by
  unfold normal
  induction v using Value.induction with
  | leaf v hv =>
      rw [settled_leaf hv, mapLeaves_leaf (isLeaf_settledLeaf hv), mapLeaves_leaf hv,
        normalLeaf_settledLeaf]
  | list items ih =>
      rw [settled_list, mapLeaves_list, mapLeaves_list, List.map_map]
      exact congrArg list (List.map_congr_left ih)
  | map entries ih =>
      rw [settled_map, mapLeaves_map, mapLeaves_map, List.map_map]
      refine congrArg map (List.map_congr_left fun entry hentry => ?_)
      exact congrArg (entry.1, ·) (ih entry hentry)
  | node op operands ih =>
      rw [settled_node, mapLeaves_node, mapLeaves_node, List.map_map]
      exact congrArg (node op) (List.map_congr_left ih)

/-- Alike values have one normal form. -/
theorem Alike.normal_eq {v w : Value} (h : Alike v w) : v.normal = w.normal :=
  h.view normal_settled

end Value

end Latent

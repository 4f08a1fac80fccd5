import Latent.Proofs.Binary64.Exact
import Latent.Proofs.Value.Parts

/-!
# The plain form of a value

`Value.mapLeaves` changes the leaves of a value and keeps its lists, maps and nodes.  The plain form
of a value is made in this way: every number in it is brought into the form that evaluation and the
wire give it.  Of values of JSON alone, the plain form is the value itself, as far as `same` can tell.
-/

namespace Latent

namespace Value

/-! ## Changing the leaves -/

mutual

/-- The value with a function applied to each of its leaves. -/
def mapLeaves (f : Value → Value) : Value → Value
  | list items => list (mapLeavesItems f items)
  | map entries => map (mapLeavesEntries f entries)
  | node op operands => node op (mapLeavesItems f operands)
  | v => f v

/-- The function is applied to the leaves of items. -/
def mapLeavesItems (f : Value → Value) : List Value → List Value
  | [] => []
  | item :: rest => mapLeaves f item :: mapLeavesItems f rest

/-- It is applied to the leaves of what is bound. -/
def mapLeavesEntries (f : Value → Value) : List (String × Value) → List (String × Value)
  | [] => []
  | (key, value) :: rest => (key, mapLeaves f value) :: mapLeavesEntries f rest

end

variable {f : Value → Value}

/-- Changing the leaves of items is mapping over them. -/
theorem mapLeavesItems_eq_map (items : List Value) :
    mapLeavesItems f items = items.map (mapLeaves f) := by
  induction items with
  | nil => rfl
  | cons item rest ih => rw [mapLeavesItems, ih, List.map_cons]

/-- Changing the leaves of what is bound is mapping over the entries. -/
theorem mapLeavesEntries_eq_map (entries : List (String × Value)) :
    mapLeavesEntries f entries = entries.map fun entry => (entry.1, mapLeaves f entry.2) := by
  induction entries with
  | nil => rfl
  | cons entry rest ih => rw [mapLeavesEntries, ih, List.map_cons]

/-- A list keeps its place, and its items change. -/
@[simp] theorem mapLeaves_list (items : List Value) :
    (list items).mapLeaves f = list (items.map (mapLeaves f)) := by
  rw [mapLeaves, mapLeavesItems_eq_map]

/-- A map keeps its keys, and what it binds changes. -/
@[simp] theorem mapLeaves_map (entries : List (String × Value)) :
    (map entries).mapLeaves f = map (entries.map fun entry => (entry.1, mapLeaves f entry.2)) := by
  rw [mapLeaves, mapLeavesEntries_eq_map]

/-- A node keeps its operator, and its operands change. -/
@[simp] theorem mapLeaves_node (op : Operator) (operands : List Value) :
    (node op operands).mapLeaves f = node op (operands.map (mapLeaves f)) := by
  rw [mapLeaves, mapLeavesItems_eq_map]

/-- A leaf is changed as a whole. -/
theorem mapLeaves_leaf {v : Value} (h : v.isLeaf) : v.mapLeaves f = f v := by
  cases v <;> first | rfl | cases h

/-! ## Numbers in their plain form -/

/-- A finite number is a whole one when 64 bits hold it exactly. -/
theorem ofBinary64_finite {x : Binary64} (h : x.isFinite = true) :
    ofBinary64 x = (match x.toInt64? with
      | some i => integer i
      | none => float x) := if_pos h

/-- A leaf with a number brought into its plain form. -/
def plainLeaf : Value → Value
  | float x => ofBinary64 x
  | decimal d => ofDecimal d
  | v => v

/-- The value with every number in its plain form, nodes included. -/
def plain (v : Value) : Value := v.mapLeaves plainLeaf

/-- The items of a list are brought into plain form. -/
@[simp] theorem plain_list (items : List Value) : (list items).plain = list (items.map plain) :=
  mapLeaves_list items

/-- So are the values of a map. -/
@[simp] theorem plain_map (entries : Entries Value) :
    (map entries).plain = map (entries.map fun entry => (entry.1, entry.2.plain)) :=
  mapLeaves_map entries

/-- So are the operands of a node. -/
@[simp] theorem plain_node (op : Operator) (operands : List Value) :
    (node op operands).plain = node op (operands.map plain) :=
  mapLeaves_node op operands

/-- A leaf in its plain form. -/
theorem plain_leaf {v : Value} (h : v.isLeaf) : v.plain = plainLeaf v := mapLeaves_leaf h

/-! ## The plain form of values of JSON -/

/-- What JSON has a form for: no decimal, no calendar value, and of the floats the finite ones. -/
def isOrdinary : Value → Bool
  | decimal _ | date _ | dateTime _ | time _ | duration _ => false
  | float x => x.isFinite
  | _ => true

/-- A finite number equals itself. -/
theorem eq_self_of_isFinite {x : Binary64} (h : x.isFinite) : x.eq x = true := by
  match x, h with
  | .finite .., _ => exact decide_eq_true rfl

/-- An ordinary leaf equals its plain form. -/
theorem plainLeaf_same {v : Value} (hleaf : v.isLeaf) (h : v.isOrdinary) :
    (plainLeaf v).same v = true := by
  cases v with
  | float x =>
      have hx : x.isFinite = true := h
      rw [plainLeaf, ofBinary64_finite hx]
      cases hi : x.toInt64? with
      | some i =>
          rw [same]
          exact decide_eq_true hi
      | none =>
          rw [same]
          exact eq_self_of_isFinite hx
  | null => rfl
  | boolean b | integer i | string s =>
      unfold plainLeaf
      rw [same]
      exact decide_eq_true rfl
  | list _ | map _ | node _ _ => cases hleaf
  | decimal _ | date _ | dateTime _ | time _ | duration _ => cases h

/-- Lists are the same when they are so item by item. -/
theorem sameItems_map {g : Value → Value} {items : List Value}
    (h : ∀ v ∈ items, (g v).same v = true) : sameItems (items.map g) items = true := by
  induction items with
  | nil => rfl
  | cons item rest ih =>
      rw [List.map_cons, sameItems, h item List.mem_cons_self,
        ih fun v hv => h v (List.mem_cons_of_mem _ hv)]
      rfl

/-- Entries are the same as those in which their keys are bound to the same values. -/
theorem sameEntries_of_find? {entries other : Entries Value}
    (h : ∀ entry ∈ entries, ∃ v, other.find? entry.1 = some v ∧ entry.2.same v = true) :
    sameEntries entries other = true := by
  induction entries with
  | nil => rfl
  | cons entry rest ih =>
      obtain ⟨v, hfind, hsame⟩ := h entry List.mem_cons_self
      rw [sameEntries, hfind, ih fun e he => h e (List.mem_cons_of_mem _ he)]
      simp only [hsame, Bool.and_true]

/-! ## Equality with itself -/

/-- Nothing keeps the value from being equal to itself, its parts aside: it is not `nan`, and binds no key
twice. -/
def isReflexive : Value → Bool
  | float x => !x.isNan
  | map entries => decide (Entries.Distinct entries)
  | _ => true

theorem eq_self_of_isReflexive {x : Binary64} (h : (float x).isReflexive) : x.eq x = true := by
  cases x with
  | nan => cases h
  | infinite _ | finite _ _ _ => exact decide_eq_true rfl

/-- A value without `nan` is the same as itself. -/
theorem same_self {v : Value} (h : v.all isReflexive) : v.same v = true := by
  induction v, h using all_induction with
  | leaf v h hleaf =>
      cases v with
      | float x =>
          rw [same]
          exact eq_self_of_isReflexive h
      | null => rfl
      | list _ | map _ | node _ _ => cases hleaf
      | _ =>
          rw [same]
          exact decide_eq_true rfl
  | list items _ ih =>
      have hitems := sameItems_map (g := id) ih
      rwa [List.map_id] at hitems
  | map entries h ih =>
      have hdistinct : Entries.Distinct entries := of_decide_eq_true (holds_of_all h)
      rw [same, decide_eq_true rfl, Bool.true_and]
      exact sameEntries_of_find? fun entry hentry =>
        ⟨entry.2, Entries.find?_of_mem hdistinct hentry, ih entry hentry⟩
  | node op operands _ ih =>
      have hoperands := sameItems_map (g := id) ih
      rw [List.map_id] at hoperands
      rw [same, decide_eq_true rfl, Bool.true_and, hoperands]

end Value

end Latent

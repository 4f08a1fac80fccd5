import Latent.Proofs.Binary64.Ranks
import Latent.Proofs.Json.Parts
import Latent.Proofs.Wire.Carries

/-!
# Trees without tags

A tree in which no object is tagged is plain data: whatever becomes of records, it is revived as it
stands, and written again it is the same tree, except that its numbers are spelled anew.  The reserved
key may well be bound in it, to anything that names no operator.
-/

namespace Latent

namespace Json

/-- The tree is no tagged object, its parts aside. -/
def isUntagged : Json → Bool
  | object entries => (tag? entries).isNone
  | _ => true

/-! ## Numbers spelled anew -/

namespace Number

/-- The number of a finite binary64 number: a whole number when it equals one in range. -/
def ofFinite (x : Binary64) (hx : x.isFinite = true) : Number :=
  match x.toInt? with
  | some i => if h : IsWhole i then .whole i h else .float x hx
  | none => .float x hx

/-- A whole number of 64 bits as it is, any other number as its nearest binary64 number. -/
def respelled (n : Number) : Number :=
  if n.toInt64?.isSome then n else ofFinite n.toBinary64 (Value.isFinite_toBinary64 n)

/-- `m` spells the double of `n`: a whole number of 64 bits is kept digit by digit, and a double that
equals one becomes whole.  Only the sign of a zero may be lost. -/
structure Respells (n m : Number) : Prop where
  equal : m.toBinary64.eq n.toBinary64
  identical : m.toBinary64 = n.toBinary64 ∨ n.toBinary64 = .zero true
  kept : n.toInt64?.isSome → m = n
  whole : ∀ i, n.toInt64? = none → n.toBinary64.toInt64? = some i → m = .ofInt64 i

variable {n : Number} {x : Binary64} {hx : x.isFinite = true}

/-- A float that equals no whole number in range stays a float. -/
theorem ofFinite_of_forall (h : ∀ i, x.toInt? = some i → ¬ IsWhole i) : ofFinite x hx = .float x hx := by
  unfold ofFinite
  cases hi : x.toInt? with
  | none => rfl
  | some i => exact dif_neg (h i hi)

/-- A whole number in the range of a tree is written without a point. -/
theorem ofFinite_of_isWhole {i : Int} (hi : x.toInt? = some i) (h : IsWhole i) :
    ofFinite x hx = .whole i h := by
  unfold ofFinite
  rw [hi]
  exact dif_pos h

/-- The double of what a finite number becomes: the number itself, but for the negative zero. -/
theorem toBinary64_ofFinite (x : Binary64) (hx : x.isFinite = true) :
    (ofFinite x hx).toBinary64.eq x ∧ ((ofFinite x hx).toBinary64 = x ∨ x = .zero true) := by
  by_cases h : ∃ i, x.toInt? = some i ∧ IsWhole i
  · obtain ⟨i, hi, hwhole⟩ := h
    rw [ofFinite_of_isWhole hi hwhole, toBinary64, Binary64.eq_ofInt (Binary64.isExact_of_toInt? hi)]
    refine ⟨decide_eq_true hi, ?_⟩
    by_cases hzero : x = .zero true
    · exact .inr hzero
    · exact .inl (Binary64.ofInt_of_toInt? hi hzero)
  · rw [ofFinite_of_forall fun i hi hwhole => h ⟨i, hi, hwhole⟩]
    exact ⟨Value.eq_self_of_isFinite hx, .inl rfl⟩

/-- Every number is spelled anew as the same double. -/
theorem respells_respelled (n : Number) : n.Respells n.respelled := by
  by_cases hkept : n.toInt64?.isSome
  · have hself : n.respelled = n := if_pos hkept
    rw [hself]
    have hfinite := Value.isFinite_toBinary64 n
    refine ⟨Value.eq_self_of_isFinite hfinite, .inl rfl, fun _ => rfl, fun i hnone => ?_⟩
    rw [hnone] at hkept
    cases hkept
  · have hfloat : n.respelled = ofFinite n.toBinary64 (Value.isFinite_toBinary64 n) := if_neg hkept
    rw [hfloat]
    obtain ⟨hequal, hidentical⟩ := toBinary64_ofFinite n.toBinary64 (Value.isFinite_toBinary64 n)
    refine ⟨hequal, hidentical, fun h => absurd h hkept, fun i _ hi => ?_⟩
    obtain ⟨j, hj, hword⟩ := Option.bind_eq_some_iff.1 hi
    obtain rfl := toInt_of_int64? hword
    exact ofFinite_of_isWhole hj _

/-- A finite float is written as the number it becomes. -/
theorem ofFloat_of_isFinite (x : Binary64) (hx : x.isFinite = true) :
    ofFloat x = .number (ofFinite x hx) := by
  have hplain : Json.ofBinary64 x = .number (.float x hx) := dif_pos hx
  unfold ofFloat ofFinite
  cases x.toInt? with
  | none => exact hplain
  | some i =>
      by_cases h : IsWhole i
      · simp only [h, dif_pos]
      · simp only [h, dif_neg, not_false_eq_true, hplain]

/-- A number is written as it is spelled anew. -/
theorem toJson_toValue (n : Number) : n.toValue.toJson = .ok (.number n.respelled) := by
  cases hi : n.toInt64? with
  | some i =>
      have hself : n.respelled = n := if_pos (Option.isSome_iff_exists.2 ⟨i, hi⟩)
      have hn : Number.ofInt64 i = n := by
        cases n with
        | whole j hj =>
            obtain rfl := toInt_of_int64? hi
            rfl
        | float _ _ => cases hi
      rw [hself, toValue, hi, Value.toJson, Json.ofInt64, hn]
  | none =>
      have hfloat : n.respelled = ofFinite n.toBinary64 (Value.isFinite_toBinary64 n) := by
        unfold respelled
        rw [hi]
        rfl
      rw [hfloat, Value.toValue_of_toInt64? hi, Value.toJson, ofFloat_of_isFinite]

end Number

/-! ## Trees with other numbers -/

mutual

/-- The tree with each of its numbers changed. -/
def mapNumbers (f : Number → Number) : Json → Json
  | number n => number (f n)
  | array items => array (mapItemNumbers f items)
  | object entries => object (mapEntryNumbers f entries)
  | tree => tree

/-- Every number of the items is replaced. -/
def mapItemNumbers (f : Number → Number) : List Json → List Json
  | [] => []
  | item :: rest => mapNumbers f item :: mapItemNumbers f rest

/-- Every number of the trees that keys are bound to is replaced. -/
def mapEntryNumbers (f : Number → Number) : List (String × Json) → List (String × Json)
  | [] => []
  | (key, tree) :: rest => (key, mapNumbers f tree) :: mapEntryNumbers f rest

end

variable {f : Number → Number}

/-- The numbers of an array are those of its items. -/
theorem mapNumbers_array (items : List Json) :
    (array items).mapNumbers f = array (items.map (mapNumbers f)) := by
  have hitems : mapItemNumbers f items = items.map (mapNumbers f) := by
    induction items with
    | nil => rfl
    | cons item rest ih => rw [mapItemNumbers, ih, List.map_cons]
  rw [mapNumbers, hitems]

/-- Keys and their order are kept. -/
theorem mapNumbers_object (entries : List (String × Json)) :
    (object entries).mapNumbers f = object (entries.map fun entry => (entry.1, entry.2.mapNumbers f)) := by
  have hentries : mapEntryNumbers f entries
      = entries.map fun entry => (entry.1, entry.2.mapNumbers f) := by
    induction entries with
    | nil => rfl
    | cons entry rest ih => rw [mapEntryNumbers, ih, List.map_cons]
  rw [mapNumbers, hentries]

end Json

namespace Value

variable {revival : Revival}

/-! ## Revived as it stands -/

/-- Items without tags are revived as plain data. -/
theorem reviveItems_eq_ok {trees : List Json} (h : ∀ tree ∈ trees, revive revival tree = .ok (ofJson tree)) :
    reviveItems revival trees = .ok (ofJsonItems trees) := by
  induction trees with
  | nil => rfl
  | cons tree rest ih =>
      obtain ⟨htree, hrest⟩ := List.forall_mem_cons.1 h
      exact reviveItems_cons htree (ih hrest)

/-- So are the values of a map. -/
theorem reviveEntries_eq_ok {entries : Entries Json}
    (h : ∀ entry ∈ entries, revive revival entry.2 = .ok (ofJson entry.2)) :
    reviveEntries revival entries = .ok (ofJsonEntries entries) := by
  induction entries with
  | nil => rfl
  | cons entry rest ih =>
      obtain ⟨hentry, hrest⟩ := List.forall_mem_cons.1 h
      rw [reviveEntries, hentry, ih hrest]
      rfl

/-- Without tagged objects no record is made. -/
theorem revive_eq_ofJson {tree : Json} (h : tree.all Json.isUntagged) :
    revive revival tree = .ok (ofJson tree) := by
  induction tree, h using Json.all_induction with
  | leaf tree _ hleaf =>
      cases tree with
      | array _ | object _ => cases hleaf
      | _ => rfl
  | array items _ ih =>
      rw [revive, reviveItems_eq_ok ih]
      rfl
  | object entries h ih =>
      have htag : Json.tag? entries = none := Option.isNone_iff_eq_none.1 (Json.holds_of_all h)
      rw [revive, reviveEntries_eq_ok ih, htag]
      rfl

/-! ## Written again -/

/-- Plain items are written one by one. -/
theorem itemsToJson_ofJson {g : Json → Json} {trees : List Json}
    (h : ∀ tree ∈ trees, (ofJson tree).toJson = .ok (g tree)) :
    itemsToJson (ofJsonItems trees) = .ok (trees.map g) := by
  induction trees with
  | nil => rfl
  | cons tree rest ih =>
      obtain ⟨htree, hrest⟩ := List.forall_mem_cons.1 h
      rw [ofJsonItems, itemsToJson, htree, ih hrest]
      rfl

/-- So are the values of a plain map. -/
theorem entriesToJson_ofJson {g : Json → Json} {entries : Entries Json}
    (h : ∀ entry ∈ entries, (ofJson entry.2).toJson = .ok (g entry.2)) :
    entriesToJson (ofJsonEntries entries) = .ok (entries.map fun entry => (entry.1, g entry.2)) := by
  induction entries with
  | nil => rfl
  | cons entry rest ih =>
      obtain ⟨hentry, hrest⟩ := List.forall_mem_cons.1 h
      rw [ofJsonEntries, entriesToJson, hentry, ih hrest]
      rfl

/-- Plain data is written as the tree it was read from, its numbers spelled anew. -/
theorem toJson_ofJson (tree : Json) :
    (ofJson tree).toJson = .ok (tree.mapNumbers Json.Number.respelled) := by
  induction tree using Json.induction with
  | leaf tree hleaf =>
      cases tree with
      | array _ | object _ => cases hleaf
      | number n => exact n.toJson_toValue
      | _ => rfl
  | array items ih =>
      rw [ofJson, toJson, itemsToJson_ofJson ih, Json.mapNumbers_array]
      rfl
  | object entries ih =>
      rw [ofJson, toJson, entriesToJson_ofJson ih, Json.mapNumbers_object]
      rfl

/-- **A tree without tags passes through untouched.**  Evaluated in any scope or not evaluated, it is
revived as plain data, and that is written as the tree again: the same keys in the same order, and each
number spelled anew as the same double. -/
theorem revive_untagged (tree : Json) (h : tree.all Json.isUntagged) :
    (∀ scope, revive (.evaluating scope) tree = .ok (ofJson tree)) ∧
    revive .rebuilding tree = .ok (ofJson tree) ∧
    (ofJson tree).toJson = .ok (tree.mapNumbers Json.Number.respelled) ∧
    ∀ n : Json.Number, n.Respells n.respelled :=
  ⟨fun _ => revive_eq_ofJson h, revive_eq_ofJson h, toJson_ofJson tree,
    Json.Number.respells_respelled⟩

/-- The reserved key is bound to a text that names no operator, to a number and to an object; the numbers
stand on both sides of `2^63`, and at the largest whole number of JSON. -/
theorem revive_untagged_reservedKey :
    let whole (i : Int) (h : Json.IsWhole i) : Json := .number (.whole i h)
    let tree : Json := .array [.object [("b", whole 9223372036854775807 (by decide)),
        (tagKey, .string "not"), ("a", whole 9223372036854775808 (by decide))],
      .object [(tagKey, whole 18446744073709551615 (by decide))],
      .object [(tagKey, .object [(tagKey, .boolean true)]), ("c", .number (.float (.zero true) rfl))]]
    tree.all Json.isUntagged ∧
    (∀ scope, revive (.evaluating scope) tree = .ok (ofJson tree)) ∧
    revive .rebuilding tree = .ok (ofJson tree) ∧
    (ofJson tree).toJson = .ok (tree.mapNumbers Json.Number.respelled) ∧
    ∀ n : Json.Number, n.Respells n.respelled :=
  have htag := by decide
  ⟨htag, revive_untagged _ htag⟩

end Value

end Latent

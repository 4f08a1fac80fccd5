import Latent.Proofs.Node.Construction
import Latent.Wire.Decode
import Latent.Wire.Encode

/-!
# Values on the wire

`Value.Carries` says that a value is written as a tree which is revived as another value.  It is shown
here for numbers and other leaves, and lifted through lists, maps and nodes, for either way of reviving
records.
-/

namespace Latent

/-! ## Tags -/

namespace Json

/-- The operator that a tree names. -/
def operator? : Json → Option Operator
  | string name => Operator.ofName? name
  | _ => none

/-- The operator of a tree is named under the key of tags. -/
theorem tag?_eq (entries : List (String × Json)) :
    tag? entries = (Entries.find? tagKey entries).bind operator? := by
  rw [tag?]
  cases Entries.find? tagKey entries with
  | none => rfl
  | some tree => cases tree <;> rfl

theorem tag?_cons (key : String) (tree : Json) (rest : List (String × Json)) :
    tag? ((key, tree) :: rest) = if key = tagKey then tree.operator? else tag? rest := by
  rw [tag?_eq, tag?_eq, Entries.find?]
  split <;> rfl

/-- No number is the name of an operator. -/
theorem operator?_ofBinary64 (x : Binary64) : (ofBinary64 x).operator? = none := by
  unfold ofBinary64
  split <;> rfl

theorem operator?_ofFloat (x : Binary64) : (ofFloat x).operator? = none := by
  unfold ofFloat
  split
  · split
    · rfl
    · exact operator?_ofBinary64 x
  · exact operator?_ofBinary64 x

end Json

namespace Value

/-- The operator that a value names. -/
def operator? : Value → Option Operator
  | string name => Operator.ofName? name
  | _ => none

/-- The operator as whose record a map would be read. -/
def tag? (entries : Entries Value) : Option Operator :=
  (Entries.find? tagKey entries).bind operator?

theorem tag?_cons (key : String) (v : Value) (rest : Entries Value) :
    tag? ((key, v) :: rest) = if key = tagKey then v.operator? else tag? rest := by
  rw [tag?, Entries.find?]
  split <;> rfl

/-- Only a text is written as a text. -/
theorem operator?_toJson {v : Value} {tree : Json} (h : v.toJson = .ok tree) :
    tree.operator? = v.operator? := by
  cases v with
  | list _ | map _ | node _ _ =>
      obtain ⟨trees, _, h⟩ := exists_of_bind_eq_ok h
      cases h
      rfl
  | float x =>
      cases h
      exact Json.operator?_ofFloat x
  | decimal d =>
      cases h
      unfold Json.ofDecimal
      split
      · rfl
      · exact Json.operator?_ofFloat _
  | _ => cases h <;> rfl

/-- Entries are written under the tag that they have. -/
theorem tag?_entriesToJson {entries : Entries Value} {trees : Entries Json}
    (h : entriesToJson entries = .ok trees) : Json.tag? trees = tag? entries := by
  induction entries generalizing trees with
  | nil =>
      cases h
      rfl
  | cons entry rest ih =>
      obtain ⟨tree, htree, h⟩ := exists_of_bind_eq_ok h
      obtain ⟨others, hothers, h⟩ := exists_of_bind_eq_ok h
      cases h
      rw [Json.tag?_cons, tag?_cons, ih hothers, operator?_toJson htree]

/-! ## What is written -/

/-- The value has a wire form, its parts aside. -/
def hasWireForm : Value → Bool
  | time _ => false
  | _ => true

/-- Items that can be written one by one can be written together. -/
theorem exists_itemsToJson_of_forall {items : List Value}
    (h : ∀ v ∈ items, ∃ tree, v.toJson = .ok tree) : ∃ trees, itemsToJson items = .ok trees := by
  induction items with
  | nil => exact ⟨[], rfl⟩
  | cons item rest ih =>
      obtain ⟨⟨tree, htree⟩, hrest⟩ := List.forall_mem_cons.1 h
      obtain ⟨trees, htrees⟩ := ih hrest
      refine ⟨tree :: trees, ?_⟩
      rw [itemsToJson, htree, htrees]
      rfl

/-- Entries that can be written one by one can be written together. -/
theorem exists_entriesToJson_of_forall {entries : Entries Value}
    (h : ∀ entry ∈ entries, ∃ tree, entry.2.toJson = .ok tree) :
    ∃ trees, entriesToJson entries = .ok trees := by
  induction entries with
  | nil => exact ⟨[], rfl⟩
  | cons entry rest ih =>
      obtain ⟨⟨tree, htree⟩, hrest⟩ := List.forall_mem_cons.1 h
      obtain ⟨trees, htrees⟩ := ih hrest
      refine ⟨(entry.1, tree) :: trees, ?_⟩
      rw [entriesToJson, htree, htrees]
      rfl

/-- A value without a time of day is written. -/
theorem exists_toJson {v : Value} (h : v.all hasWireForm) : ∃ tree, v.toJson = .ok tree := by
  induction v, h using all_induction with
  | leaf v h hleaf =>
      have hform : v.hasWireForm = true := holds_of_all h
      cases v with
      | list _ | map _ | node _ _ => cases hleaf
      | time _ => cases hform
      | _ => exact ⟨_, rfl⟩
  | list items _ ih =>
      obtain ⟨trees, htrees⟩ := exists_itemsToJson_of_forall ih
      refine ⟨.array trees, ?_⟩
      rw [toJson, htrees]
      rfl
  | map entries _ ih =>
      obtain ⟨trees, htrees⟩ := exists_entriesToJson_of_forall ih
      refine ⟨.object trees, ?_⟩
      rw [toJson, htrees]
      rfl
  | node op operands _ ih =>
      obtain ⟨trees, htrees⟩ := exists_itemsToJson_of_forall ih
      refine ⟨.tagged op trees, ?_⟩
      rw [toJson, htrees]
      rfl

/-! ## Written and revived -/

/-- The value is written as a tree that is revived as `w`. -/
def Carries (revival : Revival) (v w : Value) : Prop :=
  ∃ tree, v.toJson = .ok tree ∧ revive revival tree = .ok w

variable {revival : Revival}

/-- Null comes back. -/
theorem carries_null : Carries revival null null := ⟨_, rfl, rfl⟩

/-- Truth values come back. -/
theorem carries_boolean (b : Bool) : Carries revival (boolean b) (boolean b) := ⟨_, rfl, rfl⟩

/-- Texts come back. -/
theorem carries_string (s : String) : Carries revival (string s) (string s) := ⟨_, rfl, rfl⟩

/-! ## Numbers -/

/-- A whole number is finite. -/
theorem isFinite_of_toInt? {x : Binary64} {i : Int} (h : x.toInt? = some i) :
    x.isFinite = true := by
  match x, h with
  | .finite .., _ => rfl

/-- A JSON number that is no whole number of 64 bits is a float. -/
theorem toValue_of_toInt64? {n : Json.Number} (h : n.toInt64? = none) :
    n.toValue = float n.toBinary64 := by
  rw [Json.Number.toValue, h]

/-- Whole numbers of JSON are far below the largest binary64 number. -/
theorem isFinite_toBinary64 (n : Json.Number) : n.toBinary64.isFinite = true := by
  cases n with
  | float x hfinite => exact hfinite
  | whole i hwhole =>
      obtain ⟨hlow, hhigh⟩ := hwhole
      have hsize : i.natAbs < 2 ^ 64 := by omega
      exact Binary64.isFinite_ofInt_of_lt hsize

/-- A 64-bit whole number is its own value. -/
theorem toValue_ofInt64 (i : Int64) : (Json.Number.ofInt64 i).toValue = integer i := by
  have h : (Json.Number.ofInt64 i).toInt64? = some i := int64?_toInt i
  rw [Json.Number.toValue, h]

/-- A whole number in the range of JSON is revived as what it equals. -/
theorem revive_whole {i : Int} (h : Json.IsWhole i) {x : Binary64} (hx : x.toInt? = some i) :
    revive revival (.number (.whole i h)) = .ok (ofBinary64 x) := by
  have hview : x.toInt64? = int64? i := by rw [Binary64.toInt64?, hx, Option.bind_some]
  rw [revive, ofBinary64_finite (isFinite_of_toInt? hx), hview, Json.Number.toValue,
    Json.Number.toInt64?]
  cases hi : int64? i with
  | some j => rfl
  | none =>
      -- out of 64 bits, so not zero: the rounding of `i` is `x` itself
      have hne : x ≠ Binary64.zero true := by
        rintro rfl
        have hzero : (Binary64.zero true).toInt? = some 0 := by
          rw [Binary64.zero, Binary64.toInt?_finite, if_pos (Nat.zero_mod _), Nat.zero_div]
          rfl
        rw [hzero] at hx
        cases hx
        rw [int64?, if_pos (by decide)] at hi
        cases hi
      exact congrArg (Except.ok ∘ float) (Binary64.ofInt_of_toInt? hx hne)

/-- A binary64 number is revived in its plain form. -/
theorem revive_ofFloat (x : Binary64) :
    revive revival (.ofFloat x) = .ok (ofBinary64 x) := by
  have hofBinary64 : x.toInt64? = none →
      revive revival (.ofBinary64 x) = .ok (ofBinary64 x) := by
    intro hnone
    by_cases hfinite : x.isFinite = true
    · rw [ofBinary64_finite hfinite, hnone, Json.ofBinary64, dif_pos hfinite, revive]
      rfl
    · rw [Json.ofBinary64, dif_neg hfinite, ofBinary64, if_neg hfinite, revive]
  -- a whole number that a tree can hold is written as one, and every other number as it is
  unfold Json.ofFloat
  cases hx : x.toInt? with
  | none =>
      apply hofBinary64
      rw [Binary64.toInt64?, hx, Option.bind_none]
  | some i =>
      by_cases hwhole : Json.IsWhole i
      · simp only [hwhole, dif_pos]
        exact revive_whole hwhole hx
      · simp only [hwhole, dif_neg, not_false_eq_true]
        apply hofBinary64
        rw [Binary64.toInt64?, hx, Option.bind_some, int64?, if_neg]
        unfold Json.IsWhole at hwhole
        unfold InInt64
        omega

/-- Integers come back. -/
theorem carries_integer (i : Int64) : Carries revival (integer i) (integer i) := by
  refine ⟨_, rfl, ?_⟩
  rw [Json.ofInt64, revive, toValue_ofInt64]

/-- A float comes back in its plain form. -/
theorem carries_float (x : Binary64) : Carries revival (float x) (ofBinary64 x) :=
  ⟨_, rfl, revive_ofFloat x⟩

/-- A decimal comes back as its number. -/
theorem carries_decimal (d : Decimal) : Carries revival (decimal d) (ofDecimal d) := by
  refine ⟨_, rfl, ?_⟩
  unfold Json.ofDecimal ofDecimal
  cases d.toInt64? with
  | some i => exact congrArg Except.ok (toValue_ofInt64 i)
  | none => exact revive_ofFloat _

/-! ## Trees -/

/-- Items are revived one after the other. -/
theorem reviveItems_cons {tree : Json} {trees : List Json} {v : Value} {values : List Value}
    (h : revive revival tree = .ok v) (h' : reviveItems revival trees = .ok values) :
    reviveItems revival (tree :: trees) = .ok (v :: values) := by
  rw [reviveItems, h, h']
  rfl

/-- Revived items are the first one and the others. -/
theorem exists_of_reviveItems_cons {tree : Json} {trees : List Json} {values : List Value}
    (h : reviveItems revival (tree :: trees) = .ok values) :
    ∃ v rest, values = v :: rest ∧ revive revival tree = .ok v ∧
      reviveItems revival trees = .ok rest := by
  obtain ⟨v, htree, h⟩ := exists_of_bind_eq_ok h
  obtain ⟨rest, htrees, h⟩ := exists_of_bind_eq_ok h
  cases h
  exact ⟨v, rest, rfl, htree, htrees⟩

/-- Each revived item comes from an item. -/
theorem exists_of_mem_reviveItems {trees : List Json} {values : List Value} {v : Value}
    (h : reviveItems revival trees = .ok values) (hv : v ∈ values) :
    ∃ tree ∈ trees, revive revival tree = .ok v := by
  induction trees generalizing values with
  | nil =>
      cases h
      cases hv
  | cons tree trees ih =>
      obtain ⟨first, rest, rfl, hfirst, hrest⟩ := exists_of_reviveItems_cons h
      rcases List.mem_cons.1 hv with rfl | hv
      · exact ⟨tree, List.mem_cons_self, hfirst⟩
      · obtain ⟨other, hother, hrevive⟩ := ih hrest hv
        exact ⟨other, List.mem_cons_of_mem _ hother, hrevive⟩

/-- Revived entries are the first one, under its key, and the others. -/
theorem exists_of_reviveEntries_cons {key : String} {tree : Json} {trees : Entries Json}
    {values : Entries Value} (h : reviveEntries revival ((key, tree) :: trees) = .ok values) :
    ∃ v rest, values = (key, v) :: rest ∧ revive revival tree = .ok v ∧
      reviveEntries revival trees = .ok rest := by
  obtain ⟨v, htree, h⟩ := exists_of_bind_eq_ok h
  obtain ⟨rest, htrees, h⟩ := exists_of_bind_eq_ok h
  cases h
  exact ⟨v, rest, rfl, htree, htrees⟩

/-- Each revived entry comes from an entry with its key. -/
theorem exists_of_mem_reviveEntries {trees : Entries Json} {values : Entries Value}
    {entry : String × Value} (h : reviveEntries revival trees = .ok values) (hentry : entry ∈ values) :
    ∃ tree, (entry.1, tree) ∈ trees ∧ revive revival tree = .ok entry.2 := by
  induction trees generalizing values with
  | nil =>
      cases h
      cases hentry
  | cons first trees ih =>
      obtain ⟨v, rest, rfl, hv, hrest⟩ := exists_of_reviveEntries_cons h
      rcases List.mem_cons.1 hentry with rfl | hentry
      · exact ⟨first.2, List.mem_cons_self, hv⟩
      · obtain ⟨tree, htree, hrevive⟩ := ih hrest hentry
        exact ⟨tree, List.mem_cons_of_mem _ htree, hrevive⟩

/-- Entries are revived under their keys. -/
theorem keys_reviveEntries {trees : Entries Json} {values : Entries Value}
    (h : reviveEntries revival trees = .ok values) : Entries.keys values = Entries.keys trees := by
  induction trees generalizing values with
  | nil =>
      cases h
      rfl
  | cons first trees ih =>
      obtain ⟨v, rest, rfl, _, hrest⟩ := exists_of_reviveEntries_cons h
      exact congrArg (first.1 :: ·) (ih hrest)

/-- Items that are carried one by one are carried together. -/
theorem exists_itemsToJson {f : Value → Value} {items : List Value}
    (h : ∀ v ∈ items, Carries revival v (f v)) :
    ∃ trees, itemsToJson items = .ok trees ∧ reviveItems revival trees = .ok (items.map f) := by
  induction items with
  | nil => exact ⟨[], rfl, rfl⟩
  | cons item rest ih =>
      obtain ⟨tree, htree, hitem⟩ := h item List.mem_cons_self
      obtain ⟨trees, htrees, hrest⟩ := ih fun v hv => h v (List.mem_cons_of_mem _ hv)
      refine ⟨tree :: trees, ?_, ?_⟩
      · rw [itemsToJson, htree, htrees]
        rfl
      · exact reviveItems_cons hitem hrest

/-- Entries that are carried one by one are carried together. -/
theorem exists_entriesToJson {f : Value → Value} {entries : Entries Value}
    (h : ∀ entry ∈ entries, Carries revival entry.2 (f entry.2)) :
    ∃ trees, entriesToJson entries = .ok trees ∧
      reviveEntries revival trees = .ok (entries.map fun entry => (entry.1, f entry.2)) := by
  induction entries with
  | nil => exact ⟨[], rfl, rfl⟩
  | cons entry rest ih =>
      obtain ⟨key, v⟩ := entry
      obtain ⟨tree, htree, hentry⟩ := h (key, v) List.mem_cons_self
      obtain ⟨trees, htrees, hrest⟩ := ih fun e he => h e (List.mem_cons_of_mem _ he)
      refine ⟨(key, tree) :: trees, ?_, ?_⟩
      · rw [entriesToJson, htree, htrees]
        rfl
      · rw [reviveEntries, hentry, hrest]
        rfl

/-- Items that are written and revived together are carried one by one. -/
theorem carries_of_items {items values : List Value} {trees : List Json}
    (htrees : itemsToJson items = .ok trees) (hvalues : reviveItems revival trees = .ok values) :
    List.Forall₂ (Carries revival) items values := by
  induction items generalizing trees values with
  | nil =>
      cases htrees
      cases hvalues
      exact .nil
  | cons item rest ih =>
      obtain ⟨tree, htree, htrees⟩ := exists_of_bind_eq_ok htrees
      obtain ⟨others, hothers, htrees⟩ := exists_of_bind_eq_ok htrees
      cases htrees
      obtain ⟨w, values, rfl, hw, hvalues⟩ := exists_of_reviveItems_cons hvalues
      exact .cons ⟨tree, htree, hw⟩ (ih hothers hvalues)

/-- Entries that are written and revived together are carried one by one. -/
theorem carries_of_entries {entries values : Entries Value} {trees : Entries Json}
    (htrees : entriesToJson entries = .ok trees)
    (hvalues : reviveEntries revival trees = .ok values) :
    List.Forall₂ (fun entry other => Carries revival entry.2 other.2) entries values := by
  induction entries generalizing trees values with
  | nil =>
      cases htrees
      cases hvalues
      exact .nil
  | cons entry rest ih =>
      obtain ⟨tree, htree, htrees⟩ := exists_of_bind_eq_ok htrees
      obtain ⟨others, hothers, htrees⟩ := exists_of_bind_eq_ok htrees
      cases htrees
      obtain ⟨w, ws, rfl, hw, hws⟩ := exists_of_reviveEntries_cons hvalues
      exact .cons ⟨tree, htree, hw⟩ (ih hothers hws)

/-- A list comes back if its items do. -/
theorem carries_list {f : Value → Value} {items : List Value}
    (h : ∀ v ∈ items, Carries revival v (f v)) :
    Carries revival (list items) (list (items.map f)) := by
  obtain ⟨trees, htrees, hrevive⟩ := exists_itemsToJson h
  refine ⟨.array trees, ?_, ?_⟩
  · rw [toJson, htrees]
    rfl
  · rw [revive, hrevive]
    rfl

/-- A map that does not read as a record is carried entry by entry. -/
theorem carries_map {f : Value → Value} {entries : Entries Value} (htag : tag? entries = none)
    (h : ∀ entry ∈ entries, Carries revival entry.2 (f entry.2)) :
    Carries revival (map entries) (map (entries.map fun entry => (entry.1, f entry.2))) := by
  obtain ⟨trees, htrees, hrevive⟩ := exists_entriesToJson h
  refine ⟨.object trees, ?_, ?_⟩
  · rw [toJson, htrees]
    rfl
  · rw [revive, hrevive, tag?_entriesToJson htrees, htag]
    rfl

/-- The entries of a record are revived field by field. -/
theorem reviveEntries_zip {trees : List Json} {values : List Value} (fields : List String)
    (h : reviveItems revival trees = .ok values) :
    reviveEntries revival (fields.zip trees) = .ok (fields.zip values) := by
  induction fields generalizing trees values with
  | nil => rfl
  | cons field rest ih =>
      cases trees with
      | nil =>
          cases h
          rfl
      | cons tree trees =>
          obtain ⟨v, others, rfl, htree, htrees⟩ := exists_of_reviveItems_cons h
          rw [List.zip_cons_cons, reviveEntries, htree, ih htrees]
          rfl

/-- A record is revived from its revived fields. -/
theorem revive_tagged {op : Operator} {trees : List Json} {values : List Value}
    (h : reviveItems revival trees = .ok values) :
    revive revival (.tagged op trees) = revival.finish op (op.fields.zip values) := by
  -- the tag is revived as a text like any other, and taken out before the fields are looked at
  have htag : Json.tag? ((tagKey, .string op.name) :: op.fields.zip trees) = some op := by
    rw [Json.tag?, Entries.find?, if_pos rfl]
    exact Operator.ofName?_name op
  rw [Json.tagged, revive, reviveEntries, reviveEntries_zip op.fields h, htag, revive]
  show revival.finish op (Entries.remove tagKey ((tagKey, string op.name) :: _)) = _
  rw [Entries.remove, if_pos rfl]

/-- What is rebuilt from a record is a node of its operator. -/
theorem exists_of_finish {op : Operator} {fields : Fields} {w : Value}
    (h : Revival.rebuilding.finish op fields = .ok w) :
    ∃ operands, w = node op operands ∧ Node.ofRecord op fields = .ok (node op operands) := by
  have hbuild : Node.ofRecord op fields = .ok w := by
    cases hrecord : Node.ofRecord op fields with
    | error e =>
        rw [Revival.finish, hrecord] at h
        cases h
    | ok v =>
        rw [Revival.finish, hrecord] at h
        cases h
        rfl
  obtain ⟨operands, rfl, _⟩ := Node.exists_operandsOf hbuild
  exact ⟨operands, rfl, hbuild⟩

/-- A node is carried to what is made of its carried operands. -/
theorem carries_node {f : Value → Value} {op : Operator} {operands : List Value} {w : Value}
    (h : ∀ v ∈ operands, Carries revival v (f v))
    (hw : revival.finish op (op.fields.zip (operands.map f)) = .ok w) :
    Carries revival (node op operands) w := by
  obtain ⟨trees, htrees, hrevive⟩ := exists_itemsToJson h
  refine ⟨.tagged op trees, ?_, ?_⟩
  · rw [toJson, htrees]
    rfl
  · rw [revive_tagged hrevive, hw]

end Value

end Latent

import Latent.Node.Build
import Latent.Proofs.Value.PlainForm
import Mathlib.Data.List.Forall2

/-!
# What the construction of nodes guarantees

The operands of a node that was built pass all checks of its operator as they are: no value is coerced
a second time and no check fails when the node is built again from its operands.  This is `IsSound`.
`WellBuilt` says that every node of a value was built, and that its maps bind no key twice.

The checks look at the kinds of an operand and at its outermost form only.  So operands may be replaced
by others that `StandsFor` them.
-/

namespace Latent

/-- If two steps in a row succeed, then so does each of them. -/
theorem exists_of_bind_eq_ok {ε α β : Type} {x : Except ε α} {f : α → Except ε β} {b : β}
    (h : (x >>= f) = .ok b) : ∃ a, x = .ok a ∧ f a = .ok b := by
  cases x with
  | error e => cases h
  | ok a => exact ⟨a, rfl, h⟩

/-- If two steps in a row fail, then so does one of them. -/
theorem error_of_bind_eq_error {ε α β : Type} {x : Except ε α} {f : α → Except ε β} {e : ε}
    (h : (x >>= f) = .error e) : x = .error e ∨ ∃ a, x = .ok a ∧ f a = .error e := by
  cases x with
  | error e' =>
      cases h
      exact .inl rfl
  | ok a => exact .inr ⟨a, rfl, h⟩

/-- A step that succeeds has a result. -/
theorem exists_of_isOk {ε α : Type} {x : Except ε α} (h : x.isOk = true) : ∃ a, x = .ok a := by
  cases x with
  | error e => cases h
  | ok a => exact ⟨a, rfl⟩

/-- Another name for the failure is no success. -/
theorem eq_ok_of_mapError {ε ε' α : Type} {x : Except ε α} {f : ε → ε'} {a : α}
    (h : x.mapError f = .ok a) : x = .ok a := by
  cases x with
  | error e => cases h
  | ok a' =>
      cases h
      rfl

/-- In lists that are related item by item, each item on the right has one on the left. -/
theorem exists_of_mem_of_forall₂ {α β : Type} {r : α → β → Prop} {as : List α} {bs : List β} {b : β}
    (h : List.Forall₂ r as bs) (hb : b ∈ bs) : ∃ a ∈ as, r a b := by
  induction h with
  | nil => cases hb
  | cons hr _ ih =>
      rcases List.mem_cons.1 hb with rfl | hb
      · exact ⟨_, List.mem_cons_self, hr⟩
      · obtain ⟨a, ha, hr⟩ := ih hb
        exact ⟨a, List.mem_cons_of_mem _ ha, hr⟩

/-- What follows from a relation of items that are in the lists relates the lists. -/
theorem forall₂_imp_of_mem {α β : Type} {r s : α → β → Prop} {as : List α} {bs : List β}
    (h : List.Forall₂ r as bs) (hs : ∀ a ∈ as, ∀ {b}, r a b → s a b) : List.Forall₂ s as bs := by
  induction h with
  | nil => exact .nil
  | cons hr _ ih =>
      obtain ⟨hfirst, hrest⟩ := List.forall_mem_cons.1 hs
      exact .cons (hfirst hr) (ih hrest)

/-! ## Truth values -/

namespace Value

theorem coerceTruth_of_isTruthValue {v : Value} (h : v.isTruthValue) : v.coerceTruth = v := if_pos h

/-- What was coerced is a truth value. -/
theorem isTruthValue_coerceTruth (v : Value) : v.coerceTruth.isTruthValue := by
  unfold coerceTruth
  split
  · assumption
  · rfl

end Value

/-! ## Operands -/

/-- The operands that a field of the given role can have. -/
def Role.admits : Role → Value → Bool
  | free, _ => true
  | truth, v => v.isTruthValue
  | must r, v => r.accepts v
  | statements, .list items =>
      Operator.leastStatements ≤ items.length && items.all Value.isTruthValue
  | statements, _ => false

namespace Node

variable {op : Operator} {operands values : List Value}

/-- Statements are a list of enough truth values. -/
theorem admits_statements_iff {v : Value} :
    Role.statements.admits v ↔ ∃ items, v = .list items ∧
      Operator.leastStatements ≤ items.length ∧ ∀ item ∈ items, item.isTruthValue := by
  constructor
  · intro h
    cases v with
    | list items =>
        obtain ⟨hcount, htruth⟩ := Bool.and_eq_true_iff.1 h
        exact ⟨items, rfl, of_decide_eq_true hcount, List.all_eq_true.1 htruth⟩
    | _ => cases h
  · rintro ⟨items, rfl, hcount, htruth⟩
    exact Bool.and_eq_true_iff.2 ⟨decide_eq_true hcount, List.all_eq_true.2 htruth⟩

/-- An operand that is admitted is kept as it is. -/
theorem operandOf_of_admits {field : String} {v : Value} {role : Role} (h : role.admits v) :
    operandOf op field v role = .ok v := by
  -- a coercion leaves alone what is a truth value already
  cases role with
  | free => rfl
  | truth => exact congrArg Except.ok (Value.coerceTruth_of_isTruthValue h)
  | must r =>
      have hr : r.accepts v = true := h
      rw [operandOf, require, if_pos hr]
      rfl
  | statements =>
      obtain ⟨items, rfl, hcount, htruth⟩ := admits_statements_iff.1 h
      have hmap : items.map Value.coerceTruth = items := calc
        items.map Value.coerceTruth = items.map id := List.map_congr_left fun item hitem =>
          Value.coerceTruth_of_isTruthValue (htruth item hitem)
        _ = items := List.map_id items
      rw [operandOf, requireCount, if_neg (Nat.not_lt.2 hcount), hmap]
      rfl

/-- What a field makes of a value is admitted. -/
theorem admits_of_operandOf {field : String} {v w : Value} {role : Role}
    (h : operandOf op field v role = .ok w) : role.admits w := by
  cases role with
  | free => rfl
  | truth =>
      cases h
      exact Value.isTruthValue_coerceTruth v
  | must r =>
      obtain ⟨_, hrequire, hw⟩ := exists_of_bind_eq_ok h
      cases hw
      unfold require at hrequire
      split at hrequire
      · assumption
      · cases hrequire
  | statements =>
      cases v with
      | list items =>
          -- the count was asked for before the statements were coerced
          obtain ⟨_, hcount, hw⟩ := exists_of_bind_eq_ok h
          cases hw
          unfold requireCount at hcount
          split at hcount
          · cases hcount
          · rename_i hleast
            refine admits_statements_iff.2 ⟨_, rfl, ?_, ?_⟩
            · rw [List.length_map]
              omega
            · intro item hitem
              obtain ⟨v, _, rfl⟩ := List.mem_map.1 hitem
              exact Value.isTruthValue_coerceTruth v
      | _ => cases h

/-- Admitted operands are all kept. -/
theorem operandsOf_of_admits {slots : List Slot}
    (h : List.Forall₂ (fun slot v => slot.role.admits v) slots operands) :
    operandsOf op slots operands = .ok operands := by
  induction h with
  | nil => rfl
  | cons hslot _ ih =>
      rw [operandsOf, operandOf_of_admits hslot, ih]
      rfl

/-- The operands are admitted, and each is made of one of the values. -/
theorem admitted_of_operandsOf {slots : List Slot} (h : operandsOf op slots values = .ok operands)
    (hvalues : values.length = slots.length) :
    List.Forall₂ (fun slot v => slot.role.admits v) slots operands ∧
      ∀ w ∈ operands, ∃ v ∈ values, ∃ field role, operandOf op field v role = .ok w := by
  induction slots generalizing values operands with
  | nil =>
      cases h
      exact ⟨.nil, fun w hw => absurd hw List.not_mem_nil⟩
  | cons slot slots ih =>
      obtain ⟨v, values, rfl⟩ := List.exists_cons_of_length_eq_add_one hvalues
      obtain ⟨operand, hoperand, h⟩ := exists_of_bind_eq_ok h
      obtain ⟨rest, hrest, h⟩ := exists_of_bind_eq_ok h
      cases h
      obtain ⟨hadmitted, hmade⟩ := ih hrest (Nat.succ.inj hvalues)
      refine ⟨.cons (admits_of_operandOf hoperand) hadmitted, ?_⟩
      intro w hw
      rcases List.mem_cons.1 hw with rfl | hw
      · exact ⟨v, List.mem_cons_self, slot.key, slot.role, hoperand⟩
      · obtain ⟨u, hu, hfrom⟩ := hmade w hw
        exact ⟨u, List.mem_cons_of_mem _ hu, hfrom⟩

/-! ## Sound operands -/

/-- The operands pass the checks of an operator as they are. -/
structure IsSound (op : Operator) (operands : List Value) : Prop where
  admitted : List.Forall₂ (fun slot v => slot.role.admits v) op.slots operands
  together : requireTogether op operands = .ok ()

/-- There is one sound operand for each field. -/
theorem IsSound.length (h : IsSound op operands) : operands.length = op.fields.length :=
  h.admitted.length_eq.symm.trans op.length_slots

/-- A node is built from sound operands without a change to them. -/
theorem build_of_isSound (h : IsSound op operands) : build op operands = .ok (.node op operands) := by
  rw [build, operandsOf_of_admits h.admitted]
  show (requireTogether op operands >>= fun _ => _) = _
  rw [h.together]
  rfl

/-- A node that was built is one of the operands that are made of the values of its fields. -/
theorem exists_operandsOf {v : Value} (h : build op values = .ok v) :
    ∃ operands, v = .node op operands ∧
      operandsOf op op.slots values = .ok operands ∧
      requireTogether op operands = .ok () := by
  obtain ⟨operands, hoperands, h⟩ := exists_of_bind_eq_ok h
  obtain ⟨_, htogether, h⟩ := exists_of_bind_eq_ok h
  cases h
  exact ⟨operands, rfl, hoperands, htogether⟩

/-- These are sound. -/
theorem exists_of_build {v : Value} (hlength : values.length = op.fields.length)
    (h : build op values = .ok v) :
    ∃ operands, v = .node op operands ∧ IsSound op operands ∧
      ∀ w ∈ operands, ∃ v ∈ values, ∃ field role, operandOf op field v role = .ok w := by
  obtain ⟨operands, rfl, hoperands, htogether⟩ := exists_operandsOf h
  obtain ⟨hadmitted, hmade⟩ :=
    admitted_of_operandsOf hoperands (hlength.trans (Operator.length_slots op).symm)
  exact ⟨operands, rfl, ⟨hadmitted, htogether⟩, hmade⟩

/-- Values that are bound to the first keys are found there, and what stands for the other slots after them. -/
theorem map_find?_zip_keys {slots : List Slot} (hkeys : (slots.map Slot.key).Nodup)
    (hlength : values.length ≤ slots.length) :
    slots.map (fun slot => (Entries.find? slot.key ((slots.map Slot.key).zip values)).getD slot.missing)
      = values ++ (slots.map Slot.missing).drop values.length := by
  induction slots generalizing values with
  | nil =>
      rw [List.eq_nil_of_length_eq_zero (Nat.le_zero.1 hlength)]
      rfl
  | cons slot slots ih =>
      obtain ⟨hnew, hkeys⟩ := List.nodup_cons.1 hkeys
      cases values with
      | nil => simp [Entries.find?]
      | cons v values =>
          have hfirst : Entries.find? slot.key (((slot :: slots).map Slot.key).zip (v :: values)) = some v :=
            if_pos rfl
          -- the keys that follow are not the first one
          have hskip : ∀ other ∈ slots,
              (Entries.find? other.key (((slot :: slots).map Slot.key).zip (v :: values))).getD other.missing
                = (Entries.find? other.key ((slots.map Slot.key).zip values)).getD other.missing := by
            intro other hother
            have hne : slot.key ≠ other.key := fun heq => hnew (heq ▸ List.mem_map_of_mem hother)
            exact congrArg (Option.getD · other.missing) (if_neg hne)
          rw [List.map_cons, hfirst, List.map_congr_left hskip, ih hkeys (Nat.le_of_succ_le_succ hlength)]
          rfl

/-- A record that binds the first fields in their order is built from their values and from what stands
for the others. -/
theorem ofRecord_zip (hlength : values.length ≤ op.fields.length) :
    ofRecord op (op.fields.zip values)
      = build op (values ++ (op.slots.map Slot.missing).drop values.length) := by
  have hkeys := op.map_key_slots
  rw [ofRecord, ← map_find?_zip_keys (hkeys ▸ op.nodup_fields) (hlength.trans_eq op.length_slots.symm),
    hkeys]

/-- A record that binds all fields in their order is built from its values. -/
theorem ofRecord_zip_all (hlength : values.length = op.fields.length) :
    ofRecord op (op.fields.zip values) = build op values := by
  have hnone : (op.slots.map Slot.missing).drop values.length = [] := by
    rw [List.drop_eq_nil_iff, List.length_map, op.length_slots, hlength]
  rw [ofRecord_zip hlength.le, hnone, List.append_nil]

/-- Sound operands make the record of a node. -/
theorem ofRecord_of_isSound (h : IsSound op operands) :
    ofRecord op (op.fields.zip operands) = .ok (.node op operands) := by
  rw [ofRecord_zip_all h.length, build_of_isSound h]

end Node

/-! ## Well-built values -/

/-- Every node of the value was built, from parts that were built before, and no map binds a key
twice. -/
inductive WellBuilt : Value → Prop where
  | leaf (v : Value) (h : v.isLeaf) : WellBuilt v
  | list (items : List Value) (h : ∀ v ∈ items, WellBuilt v) : WellBuilt (.list items)
  | map (entries : Entries Value) (hkeys : Entries.Distinct entries)
      (h : ∀ entry ∈ entries, WellBuilt entry.2) : WellBuilt (.map entries)
  | node (op : Operator) (values : List Value) (v : Value)
      (hlength : values.length = op.fields.length) (h : ∀ v ∈ values, WellBuilt v)
      (hbuild : Node.build op values = .ok v) : WellBuilt v

namespace WellBuilt

variable {op : Operator}

/-- The truth of a well-built value is well built. -/
theorem coerceTruth {v : Value} (h : WellBuilt v) : WellBuilt v.coerceTruth := by
  unfold Value.coerceTruth
  split
  · exact h
  · refine node .bool [v] _ rfl (fun w hw => ?_) rfl
    rw [List.mem_singleton.1 hw]
    exact h

/-- The items of a well-built list are well built. -/
theorem items {items : List Value} (h : WellBuilt (.list items)) : ∀ v ∈ items, WellBuilt v := by
  cases h with
  | leaf _ h => cases h
  | list _ h => exact h
  | node op values v hlength _ hbuild =>
      obtain ⟨_, heq, _⟩ := Node.exists_of_build hlength hbuild
      cases heq

/-- A well-built map binds well-built values, and no key twice. -/
theorem entries {entries : Entries Value} (h : WellBuilt (.map entries)) :
    Entries.Distinct entries ∧ ∀ entry ∈ entries, WellBuilt entry.2 := by
  cases h with
  | leaf _ h => cases h
  | map _ hkeys h => exact ⟨hkeys, h⟩
  | node op values v hlength _ hbuild =>
      obtain ⟨_, heq, _⟩ := Node.exists_of_build hlength hbuild
      cases heq

/-- What a field makes of a well-built value is well built. -/
theorem operandOf {field : String} {v w : Value} {role : Role} (h : WellBuilt v)
    (hw : Node.operandOf op field v role = .ok w) : WellBuilt w := by
  cases role with
  | free =>
      cases hw
      exact h
  | truth =>
      cases hw
      exact h.coerceTruth
  | must r =>
      obtain ⟨_, _, hw⟩ := exists_of_bind_eq_ok hw
      cases hw
      exact h
  | statements =>
      cases v with
      | list statements =>
          obtain ⟨_, _, hw⟩ := exists_of_bind_eq_ok hw
          cases hw
          refine list _ fun item hitem => ?_
          obtain ⟨v, hv, rfl⟩ := List.mem_map.1 hitem
          exact (h.items v hv).coerceTruth
      | _ => cases hw

/-- The operands of a well-built node are sound and well built. -/
theorem operands {operands : List Value} (h : WellBuilt (.node op operands)) :
    Node.IsSound op operands ∧ ∀ v ∈ operands, WellBuilt v := by
  cases h with
  | leaf _ h => cases h
  | node op values v hlength hvalues hbuild =>
      obtain ⟨_, heq, hsound, hmade⟩ := Node.exists_of_build hlength hbuild
      cases heq
      refine ⟨hsound, fun w hw => ?_⟩
      obtain ⟨v, hv, _, _, hfrom⟩ := hmade w hw
      exact (hvalues v hv).operandOf hfrom

end WellBuilt

/-! ## Built values with their proofs -/

/-- A value that was built, and every part of which meets a condition. -/
structure Built (p : Value → Bool) where
  value : Value
  wellBuilt : WellBuilt value
  all : value.all p

namespace Built

variable {p : Value → Bool}

/-- A leaf is built as it is. -/
def leaf (v : Value) (hleaf : v.isLeaf) (h : p v) : Built p :=
  ⟨v, .leaf v hleaf, Value.all_of_isLeaf hleaf h⟩

/-- A list of what was built. -/
def list (items : List (Built p)) (h : p (.list (items.map value))) : Built p where
  value := .list (items.map value)
  wellBuilt := .list _ (List.forall_mem_map.2 fun b _ => b.wellBuilt)
  all := Value.all_list.2 ⟨h, List.forall_mem_map.2 fun b _ => b.all⟩

/-- A map to what was built, under keys that are distinct. -/
def map (entries : Entries (Built p)) (hkeys : Entries.Distinct entries)
    (h : p (.map (entries.map fun entry => (entry.1, entry.2.value)))) : Built p where
  value := .map (entries.map fun entry => (entry.1, entry.2.value))
  wellBuilt := .map _ (hkeys.map value) (List.forall_mem_map.2 fun entry _ => entry.2.wellBuilt)
  all := Value.all_map.2 ⟨h, List.forall_mem_map.2 fun entry _ => entry.2.all⟩

/-- A node on operands that were built and are sound. -/
def node (op : Operator) (operands : List (Built p)) (hsound : Node.IsSound op (operands.map value))
    (h : p (.node op (operands.map value))) : Built p where
  value := .node op (operands.map value)
  wellBuilt := .node op _ _ hsound.length (List.forall_mem_map.2 fun b _ => b.wellBuilt)
    (Node.build_of_isSound hsound)
  all := Value.all_node.2 ⟨h, List.forall_mem_map.2 fun b _ => b.all⟩

@[simp] theorem value_leaf (v : Value) (hleaf : v.isLeaf) (h : p v) : (leaf v hleaf h).value = v := rfl

@[simp] theorem value_list (items : List (Built p)) (h : p (.list (items.map value))) :
    (list items h).value = .list (items.map value) := rfl

@[simp] theorem value_map (entries : Entries (Built p)) (hkeys : Entries.Distinct entries)
    (h : p (.map (entries.map fun entry => (entry.1, entry.2.value)))) :
    (map entries hkeys h).value = .map (entries.map fun entry => (entry.1, entry.2.value)) := rfl

@[simp] theorem value_node (op : Operator) (operands : List (Built p))
    (hsound : Node.IsSound op (operands.map value)) (h : p (.node op (operands.map value))) :
    (node op operands hsound h).value = .node op (operands.map value) := rfl

/-- Values that were built, with what holds of them, are the values of a list of built ones. -/
theorem exists_map_value {motive : Built p → Prop} {items : List Value}
    (h : ∀ v ∈ items, ∃ b : Built p, b.value = v ∧ motive b) :
    ∃ parts : List (Built p), parts.map value = items ∧ ∀ b ∈ parts, motive b := by
  induction items with
  | nil => exact ⟨[], rfl, nofun⟩
  | cons v rest ih =>
      obtain ⟨⟨b, rfl, hb⟩, hrest⟩ := List.forall_mem_cons.1 h
      obtain ⟨parts, rfl, hparts⟩ := ih hrest
      exact ⟨b :: parts, rfl, List.forall_mem_cons.2 ⟨hb, hparts⟩⟩

/-- So they are under keys. -/
theorem exists_map_entry {motive : Built p → Prop} {entries : Entries Value}
    (h : ∀ entry ∈ entries, ∃ b : Built p, b.value = entry.2 ∧ motive b) :
    ∃ parts : Entries (Built p), (parts.map fun entry => (entry.1, entry.2.value)) = entries ∧
      Entries.keys parts = Entries.keys entries ∧ ∀ entry ∈ parts, motive entry.2 := by
  induction entries with
  | nil => exact ⟨[], rfl, rfl, nofun⟩
  | cons entry rest ih =>
      obtain ⟨key, v⟩ := entry
      obtain ⟨⟨b, rfl, hb⟩, hrest⟩ := List.forall_mem_cons.1 h
      obtain ⟨parts, rfl, hkeys, hparts⟩ := ih hrest
      exact ⟨(key, b) :: parts, rfl, congrArg (key :: ·) hkeys, List.forall_mem_cons.2 ⟨hb, hparts⟩⟩

/-- What holds of leaves, and of what is built as soon as it holds of the parts, holds of all that is
built. -/
@[elab_as_elim]
theorem induction {motive : Built p → Prop}
    (leaf : ∀ (v : Value) (hleaf : v.isLeaf) (h : p v), motive (leaf v hleaf h))
    (list : ∀ items h, (∀ b ∈ items, motive b) → motive (list items h))
    (map : ∀ entries hkeys h, (∀ entry ∈ entries, motive entry.2) → motive (map entries hkeys h))
    (node : ∀ op operands hsound h, (∀ b ∈ operands, motive b) → motive (node op operands hsound h))
    (b : Built p) : motive b := by
  obtain ⟨v, hbuilt, hall⟩ := b
  induction v using Value.induction with
  | leaf v hleaf => exact leaf v hleaf (Value.holds_of_all hall)
  | list items ih =>
      obtain ⟨parts, rfl, hparts⟩ := exists_map_value (motive := motive) fun v hv =>
        ⟨⟨v, hbuilt.items v hv, (Value.all_list.1 hall).2 v hv⟩, rfl, ih v hv _ _⟩
      exact list parts (Value.holds_of_all hall) hparts
  | map entries ih =>
      obtain ⟨hkeys, hentries⟩ := hbuilt.entries
      obtain ⟨parts, rfl, hsame, hparts⟩ := exists_map_entry (motive := motive) fun entry he =>
        ⟨⟨entry.2, hentries entry he, (Value.all_map.1 hall).2 entry he⟩, rfl, ih entry he _ _⟩
      have hdistinct : Entries.Distinct parts := by
        unfold Entries.Distinct at hkeys ⊢
        rwa [hsame]
      exact map parts hdistinct (Value.holds_of_all hall) hparts
  | node op operands ih =>
      obtain ⟨hsound, hoperands⟩ := hbuilt.operands
      obtain ⟨parts, rfl, hparts⟩ := exists_map_value (motive := motive) fun v hv =>
        ⟨⟨v, hoperands v hv, (Value.all_node.1 hall).2 v hv⟩, rfl, ih v hv _ _⟩
      exact node op parts hsound (Value.holds_of_all hall) hparts

end Built

/-! ## Operands in each other's place -/

namespace Value

/-- The value `w` passes every check that `v` passes, whatever the field. -/
structure StandsFor (w v : Value) : Prop where
  kinds : w.kinds = v.kinds
  admits : ∀ role : Role, role.admits v → role.admits w

/-- A value stands for itself. -/
theorem StandsFor.refl (v : Value) : StandsFor v v := ⟨rfl, fun _ h => h⟩

/-- Wherever a binary64 number is allowed, so is a whole number. -/
theorem integer_standsFor_float (i : Int64) (x : Binary64) : StandsFor (integer i) (float x) := by
  refine ⟨rfl, fun role h => ?_⟩
  cases role with
  | free => rfl
  | truth => cases h
  | must r => cases r <;> first | rfl | cases h
  | statements => cases h

/-- The kinds of a node depend on the kinds of its operands only. -/
theorem kinds_node_congr (op : Operator) {operands others : List Value}
    (h : List.Forall₂ (fun v w => v.kinds = w.kinds) operands others) :
    (node op operands).kinds = (node op others).kinds := by
  cases op with
  | eval =>
      match h with
      | .cons _ (.cons hdefault .nil) => exact hdefault
      | .nil | .cons _ .nil | .cons _ (.cons _ (.cons _ _)) => rfl
  | get =>
      match h with
      | .cons _ (.cons _ (.cons hdefault .nil)) => exact hdefault
      | .nil | .cons _ .nil | .cons _ (.cons _ .nil)
      | .cons _ (.cons _ (.cons _ (.cons _ _))) => rfl
  | choose =>
      match h with
      | .cons _ (.cons hyes (.cons hno .nil)) => exact congrArg₂ KindSet.union hyes hno
      | .nil | .cons _ .nil | .cons _ (.cons _ .nil)
      | .cons _ (.cons _ (.cons _ (.cons _ _))) => rfl
  | _ => rfl

/-- A list of statements stays one when its items keep their truth values. -/
theorem list_map_standsFor {g : Value → Value} {items : List Value}
    (h : ∀ v ∈ items, (g v).StandsFor v) : (list (items.map g)).StandsFor (list items) := by
  refine ⟨rfl, fun role hrole => ?_⟩
  cases role with
  | free => rfl
  | truth => cases hrole
  | must r => cases r <;> first | rfl | cases hrole
  | statements =>
      obtain ⟨_, heq, hcount, htruth⟩ := Node.admits_statements_iff.1 hrole
      cases heq
      refine Node.admits_statements_iff.2 ⟨_, rfl, ?_, fun item hitem => ?_⟩
      · rwa [List.length_map]
      · obtain ⟨v, hv, rfl⟩ := List.mem_map.1 hitem
        exact (h v hv).admits .truth (htruth v hv)

theorem map_standsFor (entries other : Entries Value) : (map entries).StandsFor (map other) := by
  refine ⟨rfl, fun role h => ?_⟩
  cases role with
  | free => rfl
  | truth => cases h
  | must r => cases r <;> first | rfl | cases h
  | statements => cases h

/-- A node is checked by its operator and its kinds alone. -/
theorem node_standsFor {op : Operator} {operands others : List Value}
    (h : (node op operands).kinds = (node op others).kinds) :
    (node op operands).StandsFor (node op others) := by
  refine ⟨h, fun role hrole => ?_⟩
  cases role with
  | free => rfl
  | truth =>
      show decide ((node op operands).kinds = _) = true
      rw [h]
      exact hrole
  | must r =>
      show r.acceptsNode op (node op operands).kinds = true
      rw [h]
      exact hrole
  | statements => cases hrole

/-- If the changed leaves stand for those they were, so does the whole value. -/
theorem mapLeaves_standsFor {f : Value → Value} {p : Value → Bool}
    (hleaf : ∀ v : Value, v.isLeaf → p v → (f v).StandsFor v) {v : Value} (h : v.all p) :
    (v.mapLeaves f).StandsFor v := by
  induction v, h using all_induction with
  | leaf v h hv =>
      rw [mapLeaves_leaf hv]
      exact hleaf v hv (holds_of_all h)
  | list items _ ih =>
      rw [mapLeaves_list]
      exact list_map_standsFor ih
  | map entries _ _ =>
      rw [mapLeaves_map]
      exact map_standsFor _ _
  | node op operands _ ih =>
      rw [mapLeaves_node]
      refine node_standsFor (kinds_node_congr op ?_)
      rw [List.forall₂_map_left_iff]
      exact List.forall₂_same.2 fun v hv => (ih v hv).kinds

end Value

/-- Two operands of `Equal` are compared by their kinds, and nothing else is compared. -/
theorem Node.requireTogether_congr (op : Operator) {operands others : List Value}
    (h : List.Forall₂ (fun v w => v.kinds = w.kinds) operands others) :
    requireTogether op operands = requireTogether op others := by
  cases op with
  | equal =>
      match h with
      | .cons hleft (.cons hright .nil) =>
          simp only [requireTogether, requireSameKinds, hleft, hright]
      | .nil | .cons _ .nil | .cons _ (.cons _ (.cons _ _)) => rfl
  | _ => rfl

/-- Operands that stand for sound ones are sound. -/
theorem Node.IsSound.map {op : Operator} {operands : List Value} {g : Value → Value}
    (h : IsSound op operands) (hg : ∀ v ∈ operands, (g v).StandsFor v) :
    IsSound op (operands.map g) := by
  refine ⟨?_, ?_⟩
  · have hadmitted := h.admitted
    generalize op.slots = slots at hadmitted
    clear h
    induction hadmitted with
    | nil => exact .nil
    | cons hslot _ ih =>
        refine .cons ((hg _ List.mem_cons_self).admits _ hslot) ?_
        exact ih fun v hv => hg v (List.mem_cons_of_mem _ hv)
  · have hkinds : List.Forall₂ (fun v w => v.kinds = w.kinds) (operands.map g) operands := by
      rw [List.forall₂_map_left_iff]
      exact List.forall₂_same.2 fun v hv => (hg v hv).kinds
    rw [requireTogether_congr op hkinds]
    exact h.together

/-! ## The plain form is built again -/

namespace Value

variable {v : Value}

/-- The plain form of an ordinary leaf passes the checks that the leaf passes. -/
theorem plainLeaf_standsFor (hleaf : v.isLeaf) (h : v.isOrdinary) : (plainLeaf v).StandsFor v := by
  cases v with
  | float x =>
      have hx : x.isFinite = true := h
      rw [plainLeaf, ofBinary64_finite hx]
      cases x.toInt64? with
      | some i => exact integer_standsFor_float i x
      | none => exact .refl _
  | null | boolean _ | integer _ | string _ => exact .refl _
  | list _ | map _ | node _ _ => cases hleaf
  | decimal _ | date _ | dateTime _ | time _ | duration _ => cases h

/-- The plain form of a part passes the checks that the part passes. -/
theorem plain_standsFor (h : v.all isOrdinary) : v.plain.StandsFor v :=
  mapLeaves_standsFor (fun _ => plainLeaf_standsFor) h

/-- What is built of JSON data equals its plain form. -/
theorem plain_same (b : Built isOrdinary) : b.value.plain.same b.value = true := by
  induction b using Built.induction with
  | leaf v hleaf h =>
      rw [Built.value_leaf, plain_leaf hleaf]
      exact plainLeaf_same hleaf h
  | list items _ ih =>
      rw [Built.value_list, plain_list, same]
      exact sameItems_map (List.forall_mem_map.2 ih)
  | map entries hkeys _ ih =>
      rw [Built.value_map, plain_map, same, List.length_map, decide_eq_true rfl, Bool.true_and]
      refine sameEntries_of_find? fun changed hchanged => ?_
      obtain ⟨_, hvalue, rfl⟩ := List.mem_map.1 hchanged
      obtain ⟨entry, hentry, rfl⟩ := List.mem_map.1 hvalue
      exact ⟨entry.2.value, Entries.find?_of_mem (hkeys.map Built.value) hvalue, ih entry hentry⟩
  | node op operands _ _ ih =>
      rw [Built.value_node, plain_node, same, decide_eq_true rfl, Bool.true_and]
      exact sameItems_map (List.forall_mem_map.2 ih)

end Value

end Latent

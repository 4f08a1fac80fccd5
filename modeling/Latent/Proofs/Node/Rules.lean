import Latent.Proofs.Node.Construction

/-!
# The rules of construction

`Operator.permits` says, operator by operator, what the operands of a node must be.  It knows nothing of
slots and roles; it holds exactly when the operands are sound (`permits_iff`).  So a value is well built
exactly when all of its nodes obey the rules and none of its maps binds a key twice (`wellBuilt_iff`).

A condition that ordinary leaves, lists and sound nodes meet is kept by the construction of nodes
(`KeptByBuilding`): coercion and defaults bring in no other parts.
-/

namespace Latent

/-! ## The rules -/

/-- The operands are what the operator asks for. -/
def Operator.permits : Operator → List Value → Bool
  | eval, [path, _] => Requirement.path.accepts path
  | not, [v] => v.isTruthValue
  | bool, [_] => true
  | and, [.list statements] | or, [.list statements] =>
    2 ≤ statements.length && statements.all Value.isTruthValue
  | equal, [left, right] => left.kinds = right.kinds
  | greater, [left, right, inclusive] | less, [left, right, inclusive] =>
    Requirement.comparable.accepts left && Requirement.comparable.accepts right &&
      inclusive.isTruthValue
  | choose, [condition, _, _] => condition.isTruthValue
  | get, [target, key, _] => Requirement.mapping.accepts target && Requirement.text.accepts key
  | member, [key, container] =>
    Requirement.memberKey.accepts key && Requirement.container.accepts container
  | date, [y, M, d, dy, dM, dd, _] => [y, M, d, dy, dM, dd].all Requirement.calendar.accepts
  | dateTime, [y, M, d, dy, dM, dd, _, h, m, s, ms, dh, dm, ds, dms] =>
    [y, M, d, dy, dM, dd, h, m, s, ms, dh, dm, ds, dms].all Requirement.calendar.accepts
  | timeDelta, [d, s, m] => [d, s, m].all Requirement.duration.accepts
  | len, [v] => Requirement.sized.accepts v
  | _, _ => false

/-- A node obeys the rules of its operator, its parts aside. -/
def Value.obeysRules : Value → Bool
  | node op operands => op.permits operands
  | _ => true

namespace Node

variable {op : Operator} {operands : List Value}

/-- Permitted operands are as many as the fields. -/
theorem length_of_permits (h : op.permits operands) : operands.length = op.fields.length := by
  unfold Operator.permits at h
  split at h <;> first | rfl | cases h

/-- Sound operands are admitted one by one, and together. -/
theorem isSound_iff : IsSound op operands ↔
    List.Forall₂ (fun slot v => slot.role.admits v) op.slots operands ∧
      requireTogether op operands = .ok () :=
  ⟨fun h => ⟨h.admitted, h.together⟩, fun h => ⟨h.1, h.2⟩⟩

theorem exists_of_length_seven {α : Type} {xs : List α} (h : xs.length = 7) :
    ∃ a b c d e f g, xs = [a, b, c, d, e, f, g] :=
  match xs, h with
  | [_, _, _, _, _, _, _], _ => ⟨_, _, _, _, _, _, _, rfl⟩

theorem exists_of_length_fifteen {α : Type} {xs : List α} (h : xs.length = 15) :
    ∃ a b c d e f g h i j k l m n o, xs = [a, b, c, d, e, f, g, h, i, j, k, l, m, n, o] :=
  match xs, h with
  | [_, _, _, _, _, _, _, _, _, _, _, _, _, _, _], _ =>
      ⟨_, _, _, _, _, _, _, _, _, _, _, _, _, _, _, rfl⟩

/-- One operand for each field: the rules ask what the slots ask. -/
theorem permits_iff_of_length (hlength : operands.length = op.fields.length) :
    op.permits operands ↔ IsSound op operands := by
  -- operand by operand; the rules are stated without the slots, so each operator is opened
  rw [isSound_iff]
  cases op with
  | eval | equal | member =>
      obtain ⟨_, _, rfl⟩ := List.length_eq_two.1 hlength
      simp [Operator.permits, Operator.slots, Role.admits, requireTogether, requireSameKinds]
  | not | bool | len =>
      obtain ⟨_, rfl⟩ := List.length_eq_one_iff.1 hlength
      simp [Operator.permits, Operator.slots, Role.admits, requireTogether]
  | greater | less | choose | get | timeDelta =>
      obtain ⟨_, _, _, rfl⟩ := List.length_eq_three.1 hlength
      simp [Operator.permits, Operator.slots, Role.admits, requireTogether, and_assoc]
  | and | or =>
      obtain ⟨v, rfl⟩ := List.length_eq_one_iff.1 hlength
      cases v <;> simp [Operator.permits, Operator.slots, admits_statements_iff, requireTogether,
        Operator.leastStatements]
  | date =>
      obtain ⟨_, _, _, _, _, _, _, rfl⟩ := exists_of_length_seven hlength
      simp [Operator.permits, Operator.slots, Operator.dateSlots, Role.admits, requireTogether]
  | dateTime =>
      obtain ⟨_, _, _, _, _, _, _, _, _, _, _, _, _, _, _, rfl⟩ := exists_of_length_fifteen hlength
      simp [Operator.permits, Operator.slots, Operator.dateSlots, Operator.timeSlots, Role.admits,
        requireTogether]

/-- **The operands that an operator permits are the sound ones.** -/
theorem permits_iff : op.permits operands ↔ IsSound op operands :=
  ⟨fun h => (permits_iff_of_length (length_of_permits h)).1 h, fun h =>
    (permits_iff_of_length (h.admitted.length_eq.symm.trans (Operator.length_slots op))).2 h⟩

end Node

/-! ## What construction keeps -/

namespace Value

/-- No key is bound twice, the parts of the value aside. -/
def hasDistinctKeys : Value → Bool
  | map entries => decide (Entries.Distinct entries)
  | _ => true

/-- The condition holds of ordinary leaves, of lists and of sound nodes, whatever their parts. -/
structure KeptByBuilding (p : Value → Bool) : Prop where
  leaf : ∀ v : Value, v.isLeaf → v.isOrdinary → p v
  list : ∀ items, p (list items)
  node : ∀ op operands, Node.IsSound op operands → p (node op operands)

/-- What is built obeys the rules if its parts do. -/
theorem keptByBuilding_obeysRules : KeptByBuilding obeysRules where
  leaf v hleaf _ := by
    cases v with
    | list _ | map _ | node _ _ => cases hleaf
    | _ => rfl
  list _ := rfl
  node _ _ := Node.permits_iff.2

/-- Building binds no key twice. -/
theorem keptByBuilding_hasDistinctKeys : KeptByBuilding hasDistinctKeys where
  leaf v hleaf _ := by
    cases v with
    | list _ | map _ | node _ _ => cases hleaf
    | _ => rfl
  list _ := rfl
  node _ _ _ := rfl

/-- Building makes no extraordinary leaf. -/
theorem keptByBuilding_isOrdinary : KeptByBuilding isOrdinary where
  leaf _ _ h := h
  list _ := rfl
  node _ _ _ := rfl

end Value

namespace Node

variable {op : Operator} {values : List Value} {fields : Entries Value} {p : Value → Bool} {v w : Value}

/-- What is missing is an ordinary leaf. -/
theorem missing_isLeaf {slot : Slot} (h : slot ∈ op.slots) :
    slot.missing.isLeaf ∧ slot.missing.isOrdinary := by
  have hall : op.slots.all fun slot => slot.missing.isLeaf && slot.missing.isOrdinary := by
    cases op <;> decide
  exact Bool.and_eq_true_iff.1 (List.all_eq_true.1 hall slot h)

/-- Asking for its truth keeps a condition of all parts. -/
theorem all_coerceTruth (hp : Value.KeptByBuilding p) (h : v.all p) : v.coerceTruth.all p := by
  unfold Value.coerceTruth
  split
  · exact h
  · exact Value.all_node.2 ⟨hp.node .bool [v] ⟨.cons rfl .nil, rfl⟩, List.forall_mem_singleton.2 h⟩

/-- What a field makes of a value meets the condition in all of its parts. -/
theorem all_of_operandOf (hp : Value.KeptByBuilding p) {field : String} {role : Role} (h : v.all p)
    (hw : operandOf op field v role = .ok w) : w.all p := by
  cases role with
  | free =>
      cases hw
      exact h
  | truth =>
      cases hw
      exact all_coerceTruth hp h
  | must r =>
      obtain ⟨_, _, hw⟩ := exists_of_bind_eq_ok hw
      cases hw
      exact h
  | statements =>
      cases v with
      | list items =>
          obtain ⟨_, _, hw⟩ := exists_of_bind_eq_ok hw
          cases hw
          refine Value.all_list.2 ⟨hp.list _, List.forall_mem_map.2 fun item hitem => ?_⟩
          exact all_coerceTruth hp ((Value.all_list.1 h).2 item hitem)
      | _ => cases hw

/-- A node that was built meets the condition in all of its parts. -/
theorem all_of_build (hp : Value.KeptByBuilding p) (hlength : values.length = op.fields.length)
    (h : ∀ v ∈ values, v.all p) (hw : build op values = .ok w) : w.all p := by
  obtain ⟨operands, rfl, hsound, hmade⟩ := exists_of_build hlength hw
  refine Value.all_node.2 ⟨hp.node op operands hsound, fun operand hoperand => ?_⟩
  obtain ⟨v, hv, _, _, hfrom⟩ := hmade operand hoperand
  exact all_of_operandOf hp (h v hv) hfrom

/-- So does one that was built from a record, whatever is missing in it. -/
theorem all_of_ofRecord (hp : Value.KeptByBuilding p) (h : ∀ entry ∈ fields, entry.2.all p)
    (hw : ofRecord op fields = .ok w) : w.all p := by
  refine all_of_build hp ?_ (List.forall_mem_map.2 fun slot hslot => ?_) hw
  · rw [List.length_map, Operator.length_slots]
  · cases hfind : Entries.find? slot.key fields with
    | some v => exact h (slot.key, v) (Entries.mem_of_find? hfind)
    | none =>
        obtain ⟨hleaf, hordinary⟩ := missing_isLeaf hslot
        exact Value.all_of_isLeaf hleaf (hp.leaf _ hleaf hordinary)

end Node

/-! ## Well-built values -/

/-- The nodes of what is built obey the rules. -/
theorem WellBuilt.obeysRules {v : Value} (h : WellBuilt v) : v.all Value.obeysRules := by
  let b : Built fun _ => true := ⟨v, h, Value.all_true v⟩
  suffices b.value.all Value.obeysRules from this
  induction b using Built.induction with
  | leaf v hleaf _ =>
      refine Value.all_of_isLeaf hleaf ?_
      cases v with
      | node _ _ => cases hleaf
      | _ => rfl
  | list items _ ih => exact Value.all_list.2 ⟨rfl, List.forall_mem_map.2 ih⟩
  | map entries _ _ ih => exact Value.all_map.2 ⟨rfl, List.forall_mem_map.2 ih⟩
  | node op operands hsound _ ih =>
      exact Value.all_node.2 ⟨Node.permits_iff.2 hsound, List.forall_mem_map.2 ih⟩

/-- Its keys are distinct. -/
theorem WellBuilt.hasDistinctKeys {v : Value} (h : WellBuilt v) : v.all Value.hasDistinctKeys := by
  let b : Built fun _ => true := ⟨v, h, Value.all_true v⟩
  suffices b.value.all Value.hasDistinctKeys from this
  induction b using Built.induction with
  | leaf v hleaf _ =>
      refine Value.all_of_isLeaf hleaf ?_
      cases v with
      | map _ => cases hleaf
      | _ => rfl
  | list items _ ih => exact Value.all_list.2 ⟨rfl, List.forall_mem_map.2 ih⟩
  | map entries hkeys _ ih =>
      exact Value.all_map.2 ⟨decide_eq_true (hkeys.map Built.value), List.forall_mem_map.2 ih⟩
  | node op operands _ _ ih => exact Value.all_node.2 ⟨rfl, List.forall_mem_map.2 ih⟩

/-- A value whose nodes obey the rules and whose keys are distinct can be built. -/
theorem WellBuilt.of_all {v : Value} (h : v.all fun v => v.obeysRules && v.hasDistinctKeys) :
    WellBuilt v := by
  induction v, h using Value.all_induction with
  | leaf v _ hleaf => exact .leaf v hleaf
  | list items _ ih => exact .list items ih
  | map entries h ih =>
      obtain ⟨_, hdistinct⟩ := Bool.and_eq_true_iff.1 (Value.holds_of_all h)
      exact .map entries (of_decide_eq_true hdistinct) ih
  | node op operands h ih =>
      -- the operands of a sound node are values that it is built from again
      obtain ⟨hnode, _⟩ := Bool.and_eq_true_iff.1 (Value.holds_of_all h)
      exact .node op operands _ (Node.length_of_permits hnode) ih
        (Node.build_of_isSound (Node.permits_iff.1 hnode))

/-- **A value is well built when its nodes obey the rules and its keys are distinct, and only then.** -/
theorem wellBuilt_iff {v : Value} :
    WellBuilt v ↔ v.all Value.obeysRules ∧ v.all Value.hasDistinctKeys :=
  ⟨fun h => ⟨h.obeysRules, h.hasDistinctKeys⟩, fun ⟨hrules, hkeys⟩ => .of_all (Value.all_and hrules hkeys)⟩

end Latent

import Latent.Proofs.Node.Rules

/-!
# Calls with the arguments of a node

The arguments of a node make that node again (`ofArguments_arguments`): none is missing, none is
coerced a second time, and the order of the fields is restored.  Whatever the arguments of a call, its
node is built from them and from defaults (`exists_of_ofArguments`).
-/

namespace Latent

namespace Operator

/-- Only `And` and `Or` have statements. -/
theorem slots_of_isVariadic {op : Operator} (h : op.isVariadic) :
    op.slots = [⟨"s", .statements, .null⟩] := by
  cases op <;> first | rfl | cases h

end Operator

namespace Value

variable {op : Operator} {operands : List Value}

/-- A spread operand is an operand, or an item of one. -/
theorem mem_spread {w : Value} (h : w ∈ spread operands) :
    w ∈ operands ∨ ∃ items, .list items ∈ operands ∧ w ∈ items := by
  fun_induction spread operands with
  | case1 => exact .inl h
  | case2 items rest ih =>
      rcases List.mem_append.1 h with h | h
      · exact .inr ⟨items, List.mem_cons_self, h⟩
      · rcases ih h with h | ⟨others, hothers, h⟩
        · exact .inl (List.mem_cons_of_mem _ h)
        · exact .inr ⟨others, List.mem_cons_of_mem _ hothers, h⟩
  | case3 v rest _ ih =>
      rcases List.mem_cons.1 h with rfl | h
      · exact .inl List.mem_cons_self
      · rcases ih h with h | ⟨others, hothers, h⟩
        · exact .inl (List.mem_cons_of_mem _ h)
        · exact .inr ⟨others, List.mem_cons_of_mem _ hothers, h⟩

/-- An argument is an operand or an item of one. -/
theorem mem_arguments {w : Value} (h : w ∈ arguments op operands) :
    w ∈ operands ∨ ∃ items, .list items ∈ operands ∧ w ∈ items := by
  unfold arguments at h
  split at h
  · exact mem_spread h
  · exact .inl (Operator.mem_of_mem_toArguments h)

/-- A condition on every part of a node is one on every argument. -/
theorem all_argument {p : Value → Bool} (h : (node op operands).all p) :
    ∀ w ∈ arguments op operands, w.all p := by
  intro w hw
  have hoperands := (all_node.1 h).2
  rcases mem_arguments hw with hw | ⟨items, hitems, hw⟩
  · exact hoperands w hw
  · exact (all_list.1 (hoperands _ hitems)).2 w hw

end Value

/-- The arguments of a well-built node are well built. -/
theorem WellBuilt.arguments {op : Operator} {operands : List Value}
    (h : WellBuilt (.node op operands)) : ∀ w ∈ Value.arguments op operands, WellBuilt w := by
  intro w hw
  rcases Value.mem_arguments hw with hw | ⟨items, hitems, hw⟩
  · exact h.operands.2 w hw
  · exact (h.operands.2 _ hitems).items w hw

namespace Node

variable {op : Operator} {operands : List Value}

/-- The one operand of `And` and `Or` is a list of statements. -/
theorem IsSound.exists_statements (h : IsSound op operands) (hvariadic : op.isVariadic) :
    ∃ items, operands = [.list items] := by
  have hadmitted := h.admitted
  rw [Operator.slots_of_isVariadic hvariadic] at hadmitted
  cases hadmitted with
  | cons hstatements hrest =>
      cases hrest
      obtain ⟨items, rfl, _⟩ := admits_statements_iff.1 hstatements
      exact ⟨items, rfl⟩

/-- The arguments of changed operands are the changed arguments. -/
theorem IsSound.arguments_map (h : IsSound op operands) {g : Value → Value}
    (hg : ∀ items, g (.list items) = .list (items.map g)) :
    Value.arguments op (operands.map g) = (Value.arguments op operands).map g := by
  unfold Value.arguments
  split
  · rename_i hvariadic
    obtain ⟨items, rfl⟩ := h.exists_statements hvariadic
    simp only [List.map_cons, List.map_nil, hg, Value.spread, List.append_nil]
  · exact Operator.toArguments_map g op operands

/-- What stands for arguments that are not given, in the order of the arguments. -/
def defaultArguments (op : Operator) : List Value := op.toArguments (op.slots.map Slot.missing)

/-- As many defaults as there are fields. -/
theorem length_defaultArguments (op : Operator) : (defaultArguments op).length = op.fields.length := by
  have hslots : (op.slots.map Slot.missing).length = op.fields.length := by
    rw [List.length_map, Operator.length_slots]
  exact Operator.length_toArguments hslots

/-- A call of a fixed number of fields has no more arguments than those. -/
theorem length_le_of_requireArity {args : List Value} (hvariadic : ¬ op.isVariadic = true)
    (h : requireArity op args = .ok ()) : args.length ≤ op.fields.length := by
  rw [requireArity, Operator.maxArguments, if_neg hvariadic] at h
  dsimp only at h
  split at h
  · cases h
  · omega

/-- Any number of statements is taken. -/
theorem requireArity_of_isVariadic (hvariadic : op.isVariadic) (args : List Value) :
    requireArity op args = .ok () := by
  rw [requireArity, Operator.maxArguments, if_pos hvariadic]

/-- The arguments of `And` and `Or` are put into one list. -/
theorem ofArguments_of_isVariadic (hvariadic : op.isVariadic) (args : List Value) :
    ofArguments op args = build op [.list args] := by
  unfold ofArguments
  rw [requireArity_of_isVariadic hvariadic]
  cases op with
  | and | or => rfl
  | _ => cases hvariadic

/-- All other calls are completed by the defaults and built in the order of the fields: `DateTime` by its
own list of defaults, the others as records of the first fields. -/
theorem ofArguments_of_requireArity {args : List Value} (hvariadic : ¬ op.isVariadic = true)
    (h : requireArity op args = .ok ()) : ofArguments op args
      = build op (op.ofArguments (args ++ (defaultArguments op).drop args.length)) := by
  have hrecord := ofRecord_zip (length_le_of_requireArity hvariadic h)
  unfold ofArguments
  rw [h]
  cases op with
  | and | or => exact absurd rfl hvariadic
  | dateTime => rfl
  | _ => exact hrecord

/-- **The arguments of a node make it again.** -/
theorem ofArguments_arguments (h : IsSound op operands) :
    ofArguments op (Value.arguments op operands) = .ok (.node op operands) := by
  by_cases hvariadic : op.isVariadic = true
  · -- the arguments are the statements, which are put into one list again
    obtain ⟨items, rfl⟩ := h.exists_statements hvariadic
    have hargs : Value.arguments op [.list items] = items := by
      rw [Value.arguments, if_pos hvariadic, Value.spread, Value.spread, List.append_nil]
    rw [hargs, ofArguments_of_isVariadic hvariadic, build_of_isSound h]
  · -- as many arguments as fields, so that no default is taken
    have hargs : Value.arguments op operands = op.toArguments operands := if_neg hvariadic
    have hlength : (op.toArguments operands).length = op.fields.length :=
      Operator.length_toArguments h.length
    have harity : requireArity op (op.toArguments operands) = .ok () := by
      have hmin := Operator.minArguments_le op
      rw [requireArity, Operator.maxArguments, if_neg hvariadic]
      exact if_neg (by omega)
    have hdefaults : (defaultArguments op).drop (op.toArguments operands).length = [] := by
      apply List.drop_eq_nil_of_le
      rw [length_defaultArguments, hlength]
    rw [hargs, ofArguments_of_requireArity hvariadic harity, hdefaults, List.append_nil,
      Operator.ofArguments_toArguments h.length, build_of_isSound h]

/-- What stands for an argument that is not given is an ordinary leaf. -/
theorem isLeaf_of_mem_defaultArguments {w : Value} (h : w ∈ defaultArguments op) :
    w.isLeaf ∧ w.isOrdinary := by
  obtain ⟨slot, hslot, rfl⟩ := List.mem_map.1 (Operator.mem_of_mem_toArguments h)
  exact missing_isLeaf hslot

/-- The node of a call is built from its arguments and from defaults, or from a list of its statements. -/
theorem exists_of_ofArguments {args : List Value} {v : Value} (h : ofArguments op args = .ok v) :
    ∃ values, values.length = op.fields.length ∧ build op values = .ok v ∧
      ∀ w ∈ values, (op.isVariadic ∧ w = .list args) ∨ w ∈ args ∨ w.isLeaf ∧ w.isOrdinary := by
  by_cases hvariadic : op.isVariadic = true
  · rw [ofArguments_of_isVariadic hvariadic] at h
    refine ⟨[.list args], ?_, h, List.forall_mem_singleton.2 (.inl ⟨hvariadic, rfl⟩)⟩
    rw [← Operator.length_slots, Operator.slots_of_isVariadic hvariadic]
    rfl
  · obtain ⟨_, harity, _⟩ := exists_of_bind_eq_ok h
    rw [ofArguments_of_requireArity hvariadic harity] at h
    have hle := length_le_of_requireArity hvariadic harity
    refine ⟨_, Operator.length_ofArguments ?_, h, fun w hw => .inr ?_⟩
    · rw [List.length_append, List.length_drop, length_defaultArguments]
      omega
    · rcases List.mem_append.1 (Operator.mem_of_mem_ofArguments hw) with hw | hw
      · exact .inl hw
      · exact .inr (isLeaf_of_mem_defaultArguments (List.mem_of_mem_drop hw))

/-- The statements of a call are coerced one by one. -/
theorem eq_of_ofArguments_statements {args : List Value} {v : Value} (hvariadic : op.isVariadic)
    (h : ofArguments op args = .ok v) : v = .node op [.list (args.map Value.coerceTruth)] := by
  rw [ofArguments_of_isVariadic hvariadic] at h
  obtain ⟨operands, rfl, hoperands, _⟩ := exists_operandsOf h
  cases op with
  | and | or =>
      obtain ⟨operand, hoperand, h⟩ := exists_of_bind_eq_ok hoperands
      cases h
      obtain ⟨_, _, h⟩ := exists_of_bind_eq_ok hoperand
      cases h
      rfl
  | _ => cases hvariadic

/-- The node of a call meets a condition in all of its parts if the arguments do, and if construction
keeps it. -/
theorem all_of_ofArguments {p : Value → Bool} (hp : Value.KeptByBuilding p) {args : List Value}
    {v : Value} (h : ∀ w ∈ args, w.all p) (hv : ofArguments op args = .ok v) : v.all p := by
  obtain ⟨values, hlength, hbuild, hvalues⟩ := exists_of_ofArguments hv
  refine all_of_build hp hlength (fun w hw => ?_) hbuild
  rcases hvalues w hw with ⟨_, rfl⟩ | hw | ⟨hleaf, hordinary⟩
  · exact Value.all_list.2 ⟨hp.list args, h⟩
  · exact h w hw
  · exact Value.all_of_isLeaf hleaf (hp.leaf w hleaf hordinary)

end Node

/-- A call with well-built arguments makes a well-built node. -/
theorem WellBuilt.ofArguments {op : Operator} {args : List Value} {v : Value}
    (h : ∀ w ∈ args, WellBuilt w) (hv : Node.ofArguments op args = .ok v) : WellBuilt v := by
  obtain ⟨values, hlength, hbuild, hvalues⟩ := Node.exists_of_ofArguments hv
  refine .node op values v hlength (fun w hw => ?_) hbuild
  rcases hvalues w hw with ⟨_, rfl⟩ | hw | ⟨hleaf, _⟩
  · exact .list args h
  · exact h w hw
  · exact .leaf w hleaf

end Latent

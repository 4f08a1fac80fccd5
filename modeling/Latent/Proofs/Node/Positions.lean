import Latent.Proofs.Node.Calls

/-!
# Construction by key and by position

A call with some of its arguments makes the node of the record that binds those fields.  However many are
given, the completed arguments in the order of the fields are what the record and the defaults of its slots
give (`ofArguments_complete`).

A node is made again by either of its projections, its record and its arguments.
-/

namespace Latent

namespace Entries

variable {α : Type}

/-- Among completed values a key is found where it is given, and among the defaults otherwise. -/
theorem find?_zip_complete (key : String) {keys : List String} {values defaults : List α}
    (h : defaults.length = keys.length) :
    find? key (keys.zip (values ++ defaults.drop values.length))
      = (find? key (keys.zip values)).or (find? key (keys.zip defaults)) := by
  induction keys generalizing values defaults with
  | nil => rfl
  | cons k keys ih =>
      obtain ⟨default, defaults, rfl⟩ := List.exists_cons_of_length_eq_add_one h
      cases values with
      | nil => rfl
      | cons value values =>
          rw [List.cons_append, List.length_cons, List.drop_succ_cons, List.zip_cons_cons,
            List.zip_cons_cons, List.zip_cons_cons, find?, find?, find?]
          split
          · rfl
          · exact ih (by simpa using h)

end Entries

namespace Operator

variable {op : Operator}

/-- The names of the arguments of a call, in their order. -/
def argumentNames : Operator → List String
  | dateTime =>
    ["y", "M", "d", "h", "m", "s", "ms", "dy", "dM", "dd", "dh", "dm", "ds", "dms", "start"]
  | op => op.fields

/-- A call takes so many arguments. -/
def Takes (op : Operator) (n : Nat) : Prop :=
  op.minArguments ≤ n ∧ ∀ maximum ∈ op.maxArguments, n ≤ maximum

/-- The arguments are named by the fields. -/
theorem toArguments_fields (op : Operator) : op.toArguments op.fields = op.argumentNames := by
  cases op <;> rfl

theorem length_argumentNames (op : Operator) : op.argumentNames.length = op.fields.length := by
  rw [← toArguments_fields, length_toArguments rfl]

/-- No two arguments have the same name. -/
theorem nodup_argumentNames (op : Operator) : op.argumentNames.Nodup := by
  cases op <;> decide

/-- The order of the fields does not look at the arguments. -/
theorem ofArguments_map {α β : Type} (f : α → β) (op : Operator) (xs : List α) :
    op.ofArguments (xs.map f) = (op.ofArguments xs).map f := by
  cases op <;> simp [ofArguments, List.map_take, List.map_drop]

/-- Arguments that are all given are found by the names of the fields. -/
theorem map_find?_argumentNames {xs : List Value} (h : xs.length = op.fields.length) :
    op.fields.map (fun field => Entries.find? field (op.argumentNames.zip xs))
      = (op.ofArguments xs).map some := by
  have hnames := Entries.map_find?_zip op.nodup_argumentNames
    (h.trans op.length_argumentNames.symm)
  have hfields : op.ofArguments op.argumentNames = op.fields := by
    rw [← toArguments_fields, ofArguments_toArguments rfl]
  rw [← ofArguments_map, ← hnames, ofArguments_map, hfields]

end Operator

namespace Node

variable {op : Operator} {args : List Value}

/-- The fields that a call gives: the statements as one field, or the first arguments by their names. -/
def givenFields (op : Operator) (args : List Value) : Entries Value :=
  if op.isVariadic then [("s", .list args)] else op.argumentNames.zip args

/-- A number of arguments that a call takes is not refused. -/
theorem requireArity_of_takes (h : op.Takes args.length) : requireArity op args = .ok () := by
  obtain ⟨hmin, hmax⟩ := h
  unfold requireArity
  split
  · rename_i maximum hmaximum
    have hle := hmax maximum hmaximum
    exact if_neg (by omega)
  · rfl

/-- A missing argument has the default of the slot that it names. -/
theorem map_find?_defaultArguments (op : Operator) :
    op.fields.map (fun field => Entries.find? field (op.argumentNames.zip (defaultArguments op)))
      = (op.slots.map Slot.missing).map some := by
  have hslots : (op.slots.map Slot.missing).length = op.fields.length := by
    rw [List.length_map, Operator.length_slots]
  rw [Operator.map_find?_argumentNames (length_defaultArguments op), defaultArguments,
    Operator.ofArguments_toArguments hslots]

/-- **The completed arguments, in the order of the fields, are what the given ones are by name**, and
the default of its slot where no argument has the name. -/
theorem ofArguments_complete (hlength : args.length ≤ op.fields.length) :
    op.ofArguments (args ++ (defaultArguments op).drop args.length)
      = op.slots.map fun slot =>
          (Entries.find? slot.key (op.argumentNames.zip args)).getD slot.missing := by
  have hdefaults := length_defaultArguments op
  have hcomplete : (args ++ (defaultArguments op).drop args.length).length = op.fields.length := by
    rw [List.length_append, List.length_drop]
    omega
  have hsome : Function.Injective (some : Value → Option Value) := Option.some_injective Value
  -- field by field: what is found under its name in one table after the other
  refine hsome.list_map ?_
  calc (op.ofArguments (args ++ (defaultArguments op).drop args.length)).map some
      = op.fields.map fun field => (Entries.find? field (op.argumentNames.zip args)).or
          (Entries.find? field (op.argumentNames.zip (defaultArguments op))) := by
        rw [← Operator.map_find?_argumentNames hcomplete]
        refine List.map_congr_left fun field _ => ?_
        exact Entries.find?_zip_complete field (hdefaults.trans op.length_argumentNames.symm)
    _ = List.zipWith Option.or
          (op.fields.map fun field => Entries.find? field (op.argumentNames.zip args))
          ((op.slots.map Slot.missing).map some) := by
        rw [← map_find?_defaultArguments, List.zipWith_map, List.zipWith_self]
    _ = (op.slots.map fun slot =>
          (Entries.find? slot.key (op.argumentNames.zip args)).getD slot.missing).map some := by
        rw [← op.map_key_slots, List.map_map, List.map_map, List.zipWith_map, List.zipWith_self,
          List.map_map]
        refine List.map_congr_left fun slot _ => ?_
        cases h : Entries.find? slot.key (op.argumentNames.zip args) <;> simp [h]

/-- **A call makes the node of the record of its arguments**, or is refused for the same reason. -/
theorem ofArguments_eq_ofRecord (op : Operator) (args : List Value) (h : op.Takes args.length) :
    ofArguments op args = ofRecord op (givenFields op args) := by
  rw [givenFields]
  by_cases hvariadic : op.isVariadic = true
  · -- the statements are the one field of the record
    rw [if_pos hvariadic, ofArguments_of_isVariadic hvariadic]
    cases op with
    | and | or => rfl
    | _ => cases hvariadic
  · have hmax : op.maxArguments = some op.fields.length := if_neg hvariadic
    rw [if_neg hvariadic, ofArguments_of_requireArity hvariadic (requireArity_of_takes h), ofRecord,
      ofArguments_complete (h.2 _ hmax)]

/-- Eight arguments, two of which are refused: the eighth is checked before the fifth, and its field is the
one that is named. -/
theorem ofArguments_eq_ofRecord_order :
    let args : List Value := [.integer 2024, .null, .integer 31, .integer 8, .string "m", .null, .null,
      .string "dy"]
    Operator.Takes .dateTime args.length ∧
      ofArguments .dateTime args = ofRecord .dateTime (givenFields .dateTime args) ∧
        ofArguments .dateTime args
          = .error (.invalidOperand .dateTime "dy" .calendar (.singleton .string)) := by
  intro args
  have htakes : Operator.Takes .dateTime args.length := ⟨by decide, by decide⟩
  exact ⟨htakes, ofArguments_eq_ofRecord .dateTime args htakes, rfl⟩

/-! ## The projections of a node -/

variable {fields : Entries Value} {v : Value}

/-- A node of a record or of a call has sound operands. -/
theorem exists_isSound (h : ofRecord op fields = .ok v ∨ ofArguments op args = .ok v) :
    ∃ operands, v = .node op operands ∧ IsSound op operands := by
  obtain ⟨values, hlength, hbuild⟩ : ∃ values : List Value,
      values.length = op.fields.length ∧ build op values = .ok v := by
    rcases h with h | h
    · refine ⟨_, ?_, h⟩
      rw [List.length_map, Operator.length_slots]
    · obtain ⟨values, hlength, hbuild, _⟩ := exists_of_ofArguments h
      exact ⟨values, hlength, hbuild⟩
  obtain ⟨operands, heq, hsound, _⟩ := exists_of_build hlength hbuild
  exact ⟨operands, heq, hsound⟩

/-- **A node is made again by its record and by its arguments**, whatever record or call it was made by. -/
theorem built_fixed (op : Operator) (fields : Entries Value) (args : List Value) (v : Value)
    (h : ofRecord op fields = .ok v ∨ ofArguments op args = .ok v) :
    ∃ operands, v = .node op operands ∧ ofRecord op (Value.record op operands) = .ok v ∧
      ofArguments op (Value.arguments op operands) = .ok v := by
  obtain ⟨operands, rfl, hsound⟩ := exists_isSound h
  exact ⟨operands, rfl, ofRecord_of_isSound hsound, ofArguments_arguments hsound⟩

/-- A record with a field that is coerced, one that is missing and one that is not known; and a call whose
arguments leave the order of the fields. -/
theorem built_fixed_coerced :
    let choice := Value.node .choose [.node .bool [.float .nan], .date default, .null]
    let fields : Entries Value := [("t", .date default), ("z", .null), ("c", .float .nan)]
    let instant := Value.node .dateTime [.integer 1, .null, .null, .integer 0, .integer 0, .integer 0,
      .null, .integer 4, .null, .null, .null, .integer 0, .integer 0, .integer 0, .integer 0]
    let args : List Value := [.integer 1, .null, .null, .integer 4]
    (ofRecord .choose fields = .ok choice ∧ ∃ operands, choice = .node .choose operands ∧
        ofRecord .choose (Value.record .choose operands) = .ok choice ∧
          ofArguments .choose (Value.arguments .choose operands) = .ok choice) ∧
      (ofArguments .dateTime args = .ok instant ∧ ∃ operands, instant = .node .dateTime operands ∧
        ofRecord .dateTime (Value.record .dateTime operands) = .ok instant ∧
          ofArguments .dateTime (Value.arguments .dateTime operands) = .ok instant) := by
  intro choice fields instant args
  have hchoice : ofRecord .choose fields = .ok choice := rfl
  have hinstant : ofArguments .dateTime args = .ok instant := rfl
  exact ⟨⟨hchoice, built_fixed .choose fields [] choice (.inl hchoice)⟩,
    ⟨hinstant, built_fixed .dateTime [] args instant (.inr hinstant)⟩⟩

end Node

end Latent

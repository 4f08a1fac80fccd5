import Latent.Node.Error

/-!
# Building nodes

A node is built from one value for each of its fields.  The *role* of a field says what becomes of its
value: it is taken as it is, coerced to a truth value, required to be of some form, or a list of
statements that are all coerced.  The fields are looked at in the order in which they are written,
and the first that is refused is the error.

Values come by key (`ofRecord`) or by position (`ofArguments`); a missing one has a default.
-/

namespace Latent

/-- What becomes of the value of a field. -/
inductive Role where
  | free
  | truth
  | must (r : Requirement)
  | statements
  deriving DecidableEq, Repr

/-- A field as it is taken from a record: its key, what becomes of its value, and its value when the
record does not bind the key. -/
structure Slot where
  key : String
  role : Role
  missing : Value

namespace Operator

/-- `And` and `Or` have so many statements at least. -/
def leastStatements : Nat := 2

/-- A field that is a whole number or null: an override when it stands for null, an addition when it
stands for zero. -/
def calendarSlot (missing : Value) (key : String) : Slot := ⟨key, .must .calendar, missing⟩

@[simp] theorem role_calendarSlot (missing : Value) (key : String) :
    (calendarSlot missing key).role = .must .calendar := rfl

@[simp] theorem missing_calendarSlot (missing : Value) (key : String) :
    (calendarSlot missing key).missing = missing := rfl

/-- The slots of the fields that `Date` and `DateTime` share: three overrides, three additions, and
the start. -/
def dateSlots : List Slot :=
  ["y", "M", "d"].map (calendarSlot .null) ++ ["dy", "dM", "dd"].map (calendarSlot (.integer 0)) ++
    [⟨"start", .free, .null⟩]

/-- The slots of the fields that only `DateTime` has: four overrides and four additions. -/
def timeSlots : List Slot :=
  ["h", "m", "s", "ms"].map (calendarSlot .null) ++
    ["dh", "dm", "ds", "dms"].map (calendarSlot (.integer 0))

/-- The slots in the order in which they are taken. -/
def slots : Operator → List Slot
  | eval => [⟨"v", .must .path, .null⟩, ⟨"d", .free, .string ""⟩]
  | not => [⟨"v", .truth, .null⟩]
  | bool => [⟨"v", .free, .null⟩]
  | and | or => [⟨"s", .statements, .null⟩]
  | equal => [⟨"s1", .free, .null⟩, ⟨"s2", .free, .null⟩]
  | greater | less =>
    [⟨"s1", .must .comparable, .null⟩, ⟨"s2", .must .comparable, .null⟩, ⟨"e", .truth, .boolean false⟩]
  | choose => [⟨"c", .truth, .null⟩, ⟨"t", .free, .null⟩, ⟨"e", .free, .null⟩]
  | get => [⟨"v", .must .mapping, .null⟩, ⟨"k", .must .text, .null⟩, ⟨"d", .free, .null⟩]
  | member => [⟨"k", .must .memberKey, .null⟩, ⟨"v", .must .container, .null⟩]
  | date => dateSlots
  | dateTime => dateSlots ++ timeSlots
  | timeDelta =>
    [⟨"d", .must .duration, .integer 0⟩, ⟨"s", .must .duration, .integer 0⟩,
      ⟨"m", .must .duration, .integer 0⟩]
  | len => [⟨"v", .must .sized, .null⟩]

/-- Fields are taken under the keys, and in the order, in which they are written. -/
theorem map_key_slots (op : Operator) : op.slots.map Slot.key = op.fields := by
  cases op <;> rfl

/-- Every field has a slot. -/
theorem length_slots (op : Operator) : op.slots.length = op.fields.length := by
  rw [← map_key_slots, List.length_map]

end Operator

namespace Value

/-! ## Truth values -/

/-- A truth value, or a node that evaluates to nothing else. -/
def isTruthValue : Value → Bool
  | boolean _ => true
  | node op operands => (node op operands).kinds = .singleton .boolean
  | _ => false

/-- The value itself when it is a truth value, its truth as a node otherwise. -/
def coerceTruth (v : Value) : Value := if v.isTruthValue then v else node .bool [v]

end Value

namespace Node

/-! ## Checks -/

/-- A value that must be of some form. -/
def require (op : Operator) (field : String) (r : Requirement) (v : Value) :
    Except BuildError Unit :=
  if r.accepts v then .ok () else .error (.invalidOperand op field r v.kinds)

/-- Statements of a least number. -/
def requireCount (op : Operator) (minimum : Nat) (statements : List Value) :
    Except BuildError Unit :=
  if statements.length < minimum then
    .error (.tooFewStatements op minimum statements.length)
  else .ok ()

/-- Two values that declare the same kinds. -/
def requireSameKinds (op : Operator) (left right : Value) : Except BuildError Unit :=
  if left.kinds = right.kinds then .ok () else .error (.typeMismatch op left.kinds right.kinds)

/-! ## Construction -/

/-- The operand made of the value of a field. -/
def operandOf (op : Operator) (field : String) (v : Value) : Role → Except BuildError Value
  | .free => .ok v
  | .truth => .ok v.coerceTruth
  | .must r => do
    require op field r v
    return v
  | .statements =>
    match v with
    | .list items => do
      requireCount op Operator.leastStatements items
      return .list (items.map Value.coerceTruth)
    | v => .error (.invalidOperand op field .statements v.kinds)

/-- The operands made of the values of all fields, or the first refusal. -/
def operandsOf (op : Operator) : List Slot → List Value → Except BuildError (List Value)
  | slot :: slots, v :: values => do
    let operand ← operandOf op slot.key v slot.role
    let operands ← operandsOf op slots values
    return operand :: operands
  | _, _ => .ok []

/-- What an operator asks of its operands taken together. -/
def requireTogether : Operator → List Value → Except BuildError Unit
  | .equal, [left, right] => requireSameKinds .equal left right
  | _, _ => .ok ()

/-- The node with the given values for its fields. -/
def build (op : Operator) (values : List Value) : Except BuildError Value := do
  let operands ← operandsOf op op.slots values
  requireTogether op operands
  return .node op operands

/-- The node whose fields are bound by key; a missing field has its default, and a key that is no
field is not looked at. -/
def ofRecord (op : Operator) (fields : Entries Value) : Except BuildError Value :=
  build op (op.slots.map fun slot => (fields.find? slot.key).getD slot.missing)

/-- What stands for the arguments of `DateTime` that are not given, in their order: null for the
overrides of date and time, zero for the additions to both, null for the start. -/
def dateTimeDefaults : List Value :=
  [.null, .null, .null, .null, .null, .null, .null,
    .integer 0, .integer 0, .integer 0, .integer 0, .integer 0, .integer 0, .integer 0, .null]

/-- The number of arguments is one that the call takes. -/
def requireArity (op : Operator) (args : List Value) : Except BuildError Unit :=
  match op.maxArguments with
  | some maximum =>
    if args.length < op.minArguments ∨ maximum < args.length then
      .error (.argumentCount op op.minArguments maximum args.length)
    else .ok ()
  | none => .ok ()

/-- The node of a call.  The arguments of `And` and `Or` are their statements, those of `DateTime` have
an order and defaults of their own, and all others are the first fields of a record. -/
def ofArguments (op : Operator) (args : List Value) : Except BuildError Value := do
  requireArity op args
  match op with
  | .and | .or => build op [.list args]
  | .dateTime =>
    build .dateTime (Operator.dateTime.ofArguments (args ++ dateTimeDefaults.drop args.length))
  | op => ofRecord op (op.fields.zip args)

/-! ## Builders on values -/

/-- The value bound to a key in `target`. -/
def lookup (target key default : Value) : Except BuildError Value := build .get [target, key, default]

/-- Whether `key` is in `container`. -/
def memberOf (key container : Value) : Except BuildError Value := build .member [key, container]

end Node

end Latent

/-!
# Operators

The closed vocabulary of nodes: for each operator its name, the keys of its fields in the order in
which they are written, and how many arguments its call takes.
-/

namespace Latent

/-- The operator of a node. -/
inductive Operator where
  | eval
  | not
  | bool
  | and
  | or
  | equal
  | greater
  | less
  | choose
  | get
  | member
  | date
  | dateTime
  | timeDelta
  | len
  deriving DecidableEq, Repr

namespace Operator

/-- All operators. -/
def all : List Operator :=
  [eval, not, bool, and, or, equal, greater, less, choose, get, member, date, dateTime, timeDelta,
    len]

/-- No operator is left out. -/
theorem mem_all (op : Operator) : op ∈ all := by
  cases op <;> simp [all]

/-- The name in records and calls. -/
def name : Operator → String
  | eval => "Eval"
  | not => "Not"
  | bool => "Bool"
  | and => "And"
  | or => "Or"
  | equal => "Equal"
  | greater => "Greater"
  | less => "Less"
  | choose => "If"
  | get => "Get"
  | member => "In"
  | date => "Date"
  | dateTime => "DateTime"
  | timeDelta => "TimeDelta"
  | len => "Len"

/-- The operator of the given name. -/
def ofName? (name : String) : Option Operator := all.find? fun op => op.name = name

/-- The fields that `Date` and `DateTime` share. -/
def dateFields : List String := ["y", "M", "d", "dy", "dM", "dd", "start"]

/-- The fields that only `DateTime` has. -/
def timeFields : List String := ["h", "m", "s", "ms", "dh", "dm", "ds", "dms"]

/-- The keys of the fields, in the order in which they are written. -/
def fields : Operator → List String
  | eval => ["v", "d"]
  | not | bool | len => ["v"]
  | and | or => ["s"]
  | equal => ["s1", "s2"]
  | greater | less => ["s1", "s2", "e"]
  | choose => ["c", "t", "e"]
  | get => ["v", "k", "d"]
  | member => ["k", "v"]
  | date => dateFields
  | dateTime => dateFields ++ timeFields
  | timeDelta => ["d", "s", "m"]

/-- No two fields of an operator have the same key. -/
theorem nodup_fields (op : Operator) : op.fields.Nodup := by
  cases op <;> decide

/-- The operands of `And` and `Or` are one field but separate arguments. -/
def isVariadic : Operator → Bool
  | and | or => true
  | _ => false

/-! ## Arguments

The arguments of a call are the fields in the order in which they are written.  Only `DateTime` has
an order of its own: the overrides of date and time come first, then the additions to both, then the
start. -/

variable {α : Type}

/-- A list with one item for each field, in the order of the arguments. -/
def toArguments : Operator → List α → List α
  | dateTime, xs =>
    xs.take 3 ++ (xs.drop 7).take 4 ++ (xs.drop 3).take 3 ++ (xs.drop 11).take 4 ++
      (xs.drop 6).take 1
  | _, xs => xs

/-- A list with one item for each argument, in the order of the fields. -/
def ofArguments : Operator → List α → List α
  | dateTime, xs =>
    xs.take 3 ++ (xs.drop 7).take 3 ++ (xs.drop 14).take 1 ++ (xs.drop 3).take 4 ++
      (xs.drop 10).take 4
  | _, xs => xs

/-- `toArguments` keeps the number of items. -/
theorem length_toArguments {op : Operator} {xs : List α} (h : xs.length = op.fields.length) :
    (op.toArguments xs).length = op.fields.length := by
  cases op <;> simp_all [toArguments, fields, dateFields, timeFields]

/-- The order of the arguments does not look at them. -/
theorem toArguments_map {β : Type} (f : α → β) (op : Operator) (xs : List α) :
    op.toArguments (xs.map f) = (op.toArguments xs).map f := by
  cases op <;> simp [toArguments, List.map_take, List.map_drop]

/-- `ofArguments` undoes `toArguments`. -/
theorem ofArguments_toArguments {op : Operator} {xs : List α}
    (h : xs.length = op.fields.length) : op.ofArguments (op.toArguments xs) = xs := by
  cases op
  case dateTime =>
    match xs, h with
    | [_, _, _, _, _, _, _, _, _, _, _, _, _, _, _], _ => rfl
  all_goals rfl

/-- `toArguments` undoes `ofArguments`. -/
theorem toArguments_ofArguments {op : Operator} {xs : List α}
    (h : xs.length = op.fields.length) : op.toArguments (op.ofArguments xs) = xs := by
  cases op
  case dateTime =>
    match xs, h with
    | [_, _, _, _, _, _, _, _, _, _, _, _, _, _, _], _ => rfl
  all_goals rfl

/-- `toArguments` adds no item. -/
theorem mem_of_mem_toArguments {op : Operator} {xs : List α} {x : α}
    (h : x ∈ op.toArguments xs) : x ∈ xs := by
  cases op
  case dateTime =>
    simp only [toArguments, List.mem_append] at h
    rcases h with (((h | h) | h) | h) | h
    · exact List.mem_of_mem_take h
    all_goals exact List.mem_of_mem_drop (List.mem_of_mem_take h)
  all_goals exact h

/-- `ofArguments` keeps the number of items. -/
theorem length_ofArguments {op : Operator} {xs : List α} (h : xs.length = op.fields.length) :
    (op.ofArguments xs).length = op.fields.length := by
  cases op <;> simp_all [ofArguments, fields, dateFields, timeFields]

/-- `ofArguments` adds no item. -/
theorem mem_of_mem_ofArguments {op : Operator} {xs : List α} {x : α}
    (h : x ∈ op.ofArguments xs) : x ∈ xs := by
  cases op
  case dateTime =>
    simp only [ofArguments, List.mem_append] at h
    rcases h with (((h | h) | h) | h) | h
    · exact List.mem_of_mem_take h
    all_goals exact List.mem_of_mem_drop (List.mem_of_mem_take h)
  all_goals exact h

/-- The least number of arguments. -/
def minArguments : Operator → Nat
  | eval | not | bool | len => 1
  | equal | member | greater | less | choose | get => 2
  | and | or | date | dateTime | timeDelta => 0

/-- A call never needs more arguments than there are fields. -/
theorem minArguments_le (op : Operator) : op.minArguments ≤ op.fields.length := by
  cases op <;> decide

/-- The greatest number of arguments; `none` when there is no limit. -/
def maxArguments (op : Operator) : Option Nat :=
  if op.isVariadic then none else some op.fields.length

/-- A name belongs to one operator. -/
theorem ofName?_name (op : Operator) : ofName? op.name = some op := by
  cases op <;> rfl

end Operator

end Latent

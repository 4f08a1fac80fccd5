import Latent.Evaluate
import Latent.Json.Reader
import Latent.Node.Build
import Latent.Wire.Error
import Latent.Wire.Record

/-!
# Values from JSON

A tree is revived from its leaves up.  An object that is tagged with an operator is, once its fields
are revived, either evaluated or rebuilt as a node; every other tree is plain data.  Evaluation never
fails; rebuilding fails at the first record that makes no node.
-/

namespace Latent

/-- A JSON number as a value: whole when it fits 64 bits with a sign. -/
def Json.Number.toValue (n : Json.Number) : Value :=
  match n.toInt64? with
  | some i => .integer i
  | none => .float n.toBinary64

/-- What becomes of tagged records. -/
inductive Revival where
  | evaluating (scope : Scope)
  | rebuilding

/-- The value of a record whose fields are revived. -/
def Revival.finish (revival : Revival) (op : Operator) (fields : Fields) :
    Except WireError Value :=
  match revival with
  | evaluating scope => .ok (scope.apply op fields)
  | rebuilding => (Node.ofRecord op fields).mapError (.invalidRecord op)

namespace Value

mutual

/-- The value of a tree. -/
def revive (revival : Revival) : Json → Except WireError Value
  | .null => .ok null
  | .boolean b => .ok (boolean b)
  | .number n => .ok n.toValue
  | .string s => .ok (string s)
  | .array items => do return list (← reviveItems revival items)
  | .object entries => do
    let fields ← reviveEntries revival entries
    match Json.tag? entries with
    | some op => revival.finish op (fields.remove tagKey)
    | none => return map fields

/-- The values of trees; the first failure is that of the whole. -/
def reviveItems (revival : Revival) : List Json → Except WireError (List Value)
  | [] => .ok []
  | item :: rest => do return (← revive revival item) :: (← reviveItems revival rest)

/-- The values that keys are bound to, likewise. -/
def reviveEntries (revival : Revival) : List (String × Json) → Except WireError (Entries Value)
  | [] => .ok []
  | (key, tree) :: rest => do
    return (key, ← revive revival tree) :: (← reviveEntries revival rest)

end

mutual

/-- The value of a tree as plain data, tags and all. -/
def ofJson : Json → Value
  | .null => null
  | .boolean b => boolean b
  | .number n => n.toValue
  | .string s => string s
  | .array items => list (ofJsonItems items)
  | .object entries => map (ofJsonEntries entries)

/-- The items as plain data. -/
def ofJsonItems : List Json → List Value
  | [] => []
  | item :: rest => ofJson item :: ofJsonItems rest

/-- The entries as plain data. -/
def ofJsonEntries : List (String × Json) → List (String × Value)
  | [] => []
  | (key, tree) :: rest => (key, ofJson tree) :: ofJsonEntries rest

end

/-- The value of a JSON text. -/
def decode (revival : Revival) (text : String) : Except WireError Value :=
  match Json.read? text with
  | some tree => revive revival tree
  | none => .error .notJson

/-- The variables that a JSON text binds.  Records among them are evaluated without variables. -/
def decodeVariables (clock : Clock) (text : String) : Except WireError (Entries Value) := do
  match ← decode (.evaluating ⟨[], clock⟩) text with
  | map bindings => return bindings
  | v => throw (.notAMapping v.kinds)

end Value

end Latent

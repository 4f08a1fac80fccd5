import Latent.Json.Basic
import Latent.Operator

/-!
# Tagged records

A node is an object whose tag is the name of its operator, followed by its fields in their order.
-/

namespace Latent

/-- The key of the tag of a record. -/
def tagKey : String := "__class__"

/-- The tag is no field. -/
theorem Operator.tagKey_notMem_fields (op : Operator) : tagKey ∉ op.fields := by
  cases op <;> decide

/-- The record of an operator and its fields. -/
def Json.tagged (op : Operator) (fields : List Json) : Json :=
  .object ((tagKey, .string op.name) :: op.fields.zip fields)

/-- The operator that the entries of an object are tagged with. -/
def Json.tag? (entries : List (String × Json)) : Option Operator :=
  match Entries.find? tagKey entries with
  | some (.string name) => Operator.ofName? name
  | _ => none

end Latent

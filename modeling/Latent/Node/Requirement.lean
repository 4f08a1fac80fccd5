import Latent.Value.Basic

/-!
# Requirements on operands

What an operator asks of an operand when a node is built.  A literal is judged by its form; a node is
judged by the kinds that it declares.
-/

namespace Latent

/-- What an operand must be. -/
inductive Requirement where
  | path
  | statements
  | comparable
  | mapping
  | text
  | memberKey
  | container
  | calendar
  | duration
  | sized
  deriving DecidableEq, Repr

namespace Requirement

/-- How messages name what is required. -/
def phrase : Requirement → String
  | path => "a string"
  | statements => "a list of statements"
  | comparable => "a number, date or datetime"
  | mapping => "a mapping"
  | text => "a string"
  | memberKey => "a string or number"
  | container => "a list or mapping"
  | calendar => "an integer or null"
  | duration => "a number"
  | sized => "a string, list or mapping"

/-- A node with the given operator and kinds is accepted. -/
def acceptsNode : Requirement → Operator → KindSet → Bool
  | comparable, op, kinds =>
    op = .date || op = .dateTime || kinds.isWithin (.singleton .number)
  | mapping, _, kinds | container, _, kinds => kinds = .singleton .composite
  | text, _, kinds => kinds = .singleton .string
  | memberKey, _, kinds => kinds.isWithin (.ofList [.string, .number])
  | calendar, _, kinds => kinds.isWithin (.ofList [.number, .any])
  | sized, _, kinds => kinds.isWithin (.ofList [.string, .composite])
  | path, _, _ | statements, _, _ | duration, _, _ => false

/-- A literal is accepted. -/
def acceptsLiteral : Requirement → Value → Bool
  | path, .string _ => true
  | statements, .list _ => true
  | comparable, .null | comparable, .integer _ | comparable, .float _ | comparable, .decimal _
  | comparable, .date _ | comparable, .dateTime _ => true
  | mapping, .map _ => true
  | text, .string _ => true
  | memberKey, .string _ | memberKey, .integer _ | memberKey, .float _ => true
  | container, .list _ | container, .map _ => true
  | calendar, .null | calendar, .integer _ => true
  | duration, .integer _ | duration, .float _ => true
  | sized, .string _ | sized, .list _ | sized, .map _ => true
  | _, _ => false

/-- A value is accepted. -/
def accepts (r : Requirement) : Value → Bool
  | .node op operands => r.acceptsNode op (Value.node op operands).kinds
  | v => r.acceptsLiteral v

end Requirement

end Latent

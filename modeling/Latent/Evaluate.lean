import Latent.Calendar.Adjustment
import Latent.Value.Equality
import Latent.Value.Path
import Latent.Value.Text

/-!
# Evaluation

A scope gives the variables and the clock.  `Scope.apply` evaluates one operator on its fields once
they hold plain values; `Value.evaluate` evaluates every node of a value, operands first, and brings
numbers into their plain form.  Evaluation is total: what has no result gives null, false or a
default.
-/

namespace Latent

/-- What an evaluation can look at. -/
structure Scope where
  bindings : Entries Value
  clock : Clock
  deriving Inhabited

/-- Evaluated fields by their keys. -/
abbrev Fields := Entries Value

namespace Fields

/-- The value of a field; null when there is none. -/
def value (fields : Fields) (key : String) : Value := (fields.find? key).getD .null

/-- The whole part of a number, as far as 64 bits go. -/
def whole? (fields : Fields) (key : String) : Option Int :=
  ((fields.value key).toBinary64?.bind Binary64.truncate?).map fun i => (Int64.ofIntClamp i).toInt

/-- An override of a date field: zero leaves the base as it is. -/
def override? (fields : Fields) (key : String) : Option Int :=
  (fields.whole? key).filter (· ≠ 0)

/-- An addition: nothing when the field is no number. -/
def addition (fields : Fields) (key : String) : Int := (fields.whole? key).getD 0

/-- A component of a duration: zero when the field is no number. -/
def component (fields : Fields) (key : String) : Binary64 :=
  (fields.value key).toBinary64?.getD 0

/-- The adjustment of a date that the fields ask for. -/
def dateAdjustment (fields : Fields) : DateAdjustment where
  year := fields.override? "y"
  month := fields.override? "M"
  day := fields.override? "d"
  addYears := fields.addition "dy"
  addMonths := fields.addition "dM"
  addDays := fields.addition "dd"

/-- The adjustment of a time that the fields ask for. -/
def timeAdjustment (fields : Fields) : TimeAdjustment where
  hour := fields.whole? "h"
  minute := fields.whole? "m"
  second := fields.whole? "s"
  micros := fields.whole? "ms"
  addHours := fields.addition "dh"
  addMinutes := fields.addition "dm"
  addSeconds := fields.addition "ds"
  addMicros := fields.addition "dms"

/-- The operands of a comparison, when both have a place in the order. -/
def ordinals? (fields : Fields) : Option (Binary64 × Binary64) := do
  let left ← (fields.value "s1").ordinal?
  let right ← (fields.value "s2").ordinal?
  return (left, right)

/-- A comparison, strict unless the field `e` is true. -/
def compare (fields : Fields) (strict inclusive : Binary64 → Binary64 → Bool) : Value :=
  match fields.ordinals? with
  | some (left, right) =>
    .boolean (if (fields.value "e").isTruthy then inclusive left right else strict left right)
  | none => .boolean false

/-- Some statement of a list of statements decides: all or any of them. -/
def overStatements (fields : Fields) (decides : List Value → Bool) : Value :=
  match fields.value "s" with
  | .list statements => .boolean (decides statements)
  | _ => .boolean false

end Fields

/-! ## Membership -/

/-- The key of a map that a value spells: a text itself, a number its canonical text. -/
def Value.asKey? : Value → Option String
  | string s => some s
  | integer i => some (String.ofList (intText i.toInt))
  | float x => some (String.ofList x.canonicalText)
  | _ => none

/-- One text occurs in another. -/
def Text.occursIn (part : List Char) : List Char → Bool
  | [] => part.isEmpty
  | c :: rest => part.isPrefixOf (c :: rest) || occursIn part rest

/-- Membership of a key: in a list an equal item, in a map a true value bound to the key, in a text
an occurrence. -/
def Value.holds (container key : Value) : Bool :=
  match container with
  | .list items => items.any fun item => item.looselyEqual key
  | .map entries => ((key.asKey?.bind (Entries.find? · entries)).map Value.isTruthy).getD false
  | .string text => (key.toText?.map fun part => Text.occursIn part.toList text.toList).getD false
  | _ => false

namespace Scope

/-- The date from which a date node starts. -/
def startDate (scope : Scope) : Value → Date
  | .date d => d
  | .dateTime t => t.date
  | _ => scope.clock.today

/-- The instant from which a date-time node starts. -/
def startTime (scope : Scope) : Value → DateTime
  | .dateTime t => t
  | .date d => .atMidnight d
  | _ => scope.clock.now

/-- The result of an operator on evaluated fields. -/
def apply (scope : Scope) (op : Operator) (fields : Fields) : Value :=
  match op with
  | .eval =>
    match fields.value "v" with
    | .string path => (Path.resolve? path scope.bindings).getD (fields.value "d")
    | _ => fields.value "d"
  | .not => .boolean !(fields.value "v").isTruthy
  | .bool => .boolean (fields.value "v").isTruthy
  | .and => fields.overStatements fun statements => statements.all Value.isTruthy
  | .or => fields.overStatements fun statements => statements.any Value.isTruthy
  | .equal => .boolean ((fields.value "s1").looselyEqual (fields.value "s2"))
  | .greater => fields.compare (fun left right => right.lt left) (fun left right => right.le left)
  | .less => fields.compare Binary64.lt Binary64.le
  | .choose => if (fields.value "c").isTruthy then fields.value "t" else fields.value "e"
  | .get =>
    match fields.value "v", fields.value "k" with
    | .map entries, .string key => (Entries.find? key entries).getD (fields.value "d")
    | _, _ => fields.value "d"
  | .member => .boolean ((fields.value "v").holds (fields.value "k"))
  | .date =>
    match fields.dateAdjustment.adjust? (scope.startDate (fields.value "start")) with
    | some d => .date d
    | none => .null
  | .dateTime =>
    match fields.timeAdjustment.adjust? fields.dateAdjustment
        (scope.startTime (fields.value "start")) with
    | some t => .dateTime t
    | none => .null
  | .timeDelta =>
    match Duration.ofComponents? (fields.component "d") (fields.component "s")
        (fields.component "m") with
    | some d => .duration d
    | none => .null
  | .len =>
    match (fields.value "v").length? with
    | some n => .integer (Int64.ofNat n)
    | none => .null

end Scope

namespace Value

mutual

/-- The value with every node replaced by its result and every number in its plain form. -/
def evaluate (scope : Scope) : Value → Value
  | node op operands => scope.apply op (record op (evaluateItems scope operands))
  | list items => list (evaluateItems scope items)
  | map entries => map (evaluateEntries scope entries)
  | decimal d => ofDecimal d
  | float x => ofBinary64 x
  | v => v

/-- Items are evaluated one by one. -/
def evaluateItems (scope : Scope) : List Value → List Value
  | [] => []
  | item :: rest => evaluate scope item :: evaluateItems scope rest

/-- What is bound is evaluated under its key. -/
def evaluateEntries (scope : Scope) : List (String × Value) → List (String × Value)
  | [] => []
  | (key, value) :: rest => (key, evaluate scope value) :: evaluateEntries scope rest

end

/-- Evaluating items is mapping over them. -/
theorem evaluateItems_eq_map (scope : Scope) (items : List Value) :
    evaluateItems scope items = items.map (evaluate scope) := by
  induction items with
  | nil => rfl
  | cons item rest ih => rw [evaluateItems, ih, List.map_cons]

/-- Evaluating entries is mapping over them, keys and order kept. -/
theorem evaluateEntries_eq_map (scope : Scope) (entries : List (String × Value)) :
    evaluateEntries scope entries
      = entries.map fun entry => (entry.1, evaluate scope entry.2) := by
  induction entries with
  | nil => rfl
  | cons entry rest ih => rw [evaluateEntries, ih, List.map_cons]

variable (scope : Scope)

/-- A list evaluates to the list of its evaluated items. -/
@[simp] theorem evaluate_list (items : List Value) :
    (list items).evaluate scope = list (items.map (evaluate scope)) := by
  rw [evaluate, evaluateItems_eq_map]

/-- A map binds its keys to what they were bound to, evaluated. -/
@[simp] theorem evaluate_map (entries : List (String × Value)) : (map entries).evaluate scope
    = map (entries.map fun entry => (entry.1, evaluate scope entry.2)) := by
  rw [evaluate, evaluateEntries_eq_map]

/-- Operands are evaluated before their operator is applied. -/
@[simp] theorem evaluate_node (op : Operator) (operands : List Value) : (node op operands).evaluate scope
    = scope.apply op (record op (operands.map (evaluate scope))) := by
  rw [evaluate, evaluateItems_eq_map]

end Value

end Latent

import Latent.Calendar.Text
import Latent.Decimal
import Latent.Entries
import Latent.Kind
import Latent.Operator
import Latent.Text.Blank

/-!
# Values

A value is plain data, or a *node*: an operator with one operand for each of its fields.  Any part of
a value may be a node.  The views of this module — kinds, truth, number, ordinal, length — are what
operators look at.
-/

namespace Latent

/-- The 64-bit whole number that a binary64 number equals. -/
def Binary64.toInt64? (x : Binary64) : Option Int64 := x.toInt?.bind int64?

/-- Data whose parts may be postponed computations. -/
inductive Value where
  | null
  | boolean (b : Bool)
  | integer (i : Int64)
  | float (x : Binary64)
  | decimal (d : Decimal)
  | string (s : String)
  | list (items : List Value)
  | map (entries : List (String × Value))
  | date (d : Date)
  | dateTime (t : DateTime)
  | time (t : TimeOfDay)
  | duration (d : Duration)
  | node (op : Operator) (operands : List Value)
  deriving Inhabited

namespace Value

/-! ## Numbers -/

/-- A binary64 number in its plain form: a whole number when it equals one of 64 bits, and null when
it is not finite. -/
def ofBinary64 (x : Binary64) : Value :=
  if x.isFinite then
    match x.toInt64? with
    | some i => integer i
    | none => float x
  else null

/-- A decimal number in its plain form: a whole number when it equals one of 64 bits, the nearest
binary64 number otherwise. -/
def ofDecimal (d : Decimal) : Value :=
  match d.toInt64? with
  | some i => integer i
  | none => ofBinary64 d.toBinary64

/-- Integers, floats and decimals. -/
def isNumber : Value → Bool
  | integer _ | float _ | decimal _ => true
  | _ => false

/-- The whole number that a number equals; a float out of range gives the end of the range. -/
def toInt64? : Value → Option Int64
  | integer i => some i
  | float x => x.toInt?.map Int64.ofIntClamp
  | decimal d => d.toInt64?
  | _ => none

/-- The nearest binary64 number of a number. -/
def toBinary64? : Value → Option Binary64
  | integer i => some (.ofInt i.toInt)
  | float x => some x
  | decimal d => some d.toBinary64
  | _ => none

/-! ## Kinds -/

/-- The kinds of what a value can evaluate to, as far as its form tells: a look-up has the kinds of
its default, a choice those of both branches. -/
def kinds : Value → KindSet
  | null => .singleton .any
  | boolean _ => .singleton .boolean
  | integer _ | float _ | decimal _ => .singleton .number
  | string _ => .singleton .string
  | list _ | map _ | date _ | dateTime _ | time _ | duration _ => .singleton .composite
  | node .eval [_, default] => kinds default
  | node .get [_, _, default] => kinds default
  | node .choose [_, yes, no] => (kinds yes).union (kinds no)
  | node .date _ | node .dateTime _ | node .timeDelta _ => .singleton .composite
  | node .len _ => .singleton .number
  | node _ _ => .singleton .boolean

/-! ## Other views -/

/-- The value that stands for nothing. -/
def isNull : Value → Bool
  | null => true
  | _ => false

/-- The values that are not evaluated yet. -/
def isNode : Value → Bool
  | node .. => true
  | _ => false

/-- The text of a value that is one. -/
def toText? : Value → Option String
  | string s => some s
  | _ => none

/-- The truth of a value: null, zero, `nan` and whatever is empty are false.  Of a time of day only
hours to milliseconds count. -/
def isTruthy : Value → Bool
  | null => false
  | boolean b => b
  | integer i => i ≠ 0
  | float x => !x.isZero && !x.isNan
  | decimal d => !d.isZero
  | string s => s ≠ ""
  | list items => !items.isEmpty
  | map entries => !entries.isEmpty
  | date _ | dateTime _ | node .. => true
  | time t => t.secondOfDay ≠ 0 || 1000000 ≤ t.nanos
  | duration d => !d.isZero

/-- The number by which values are ordered: truth values are 0 and 1, calendar values count
milliseconds, a text is read as a number, and a blank one is 0. -/
def ordinal? : Value → Option Binary64
  | null | list _ | map _ | node .. => none
  | boolean b => some (if b then 1 else 0)
  | integer i => some (.ofInt i.toInt)
  | float x => some x
  | decimal d => some d.toBinary64
  | string s =>
    let text := Text.trim s.toList
    if text.isEmpty then some 0 else Binary64.ofText? text
  | date d => some d.millis
  | dateTime t => some t.millis
  | time t => some t.millis
  | duration d => some d.millis

/-- The number of characters, items or entries. -/
def length? : Value → Option Nat
  | string s => some s.length
  | list items => some items.length
  | map entries => some entries.length
  | _ => none

/-! ## Nodes -/

/-- The fields of a node by their keys, in the order in which they are written. -/
def record (op : Operator) (operands : List Value) : Entries Value := op.fields.zip operands

/-- The items of lists, one after another. -/
def spread : List Value → List Value
  | [] => []
  | list items :: rest => items ++ spread rest
  | v :: rest => v :: spread rest

/-- The operands of a node in the order of the arguments of a call.  The statements of `And` and `Or`
are arguments of their own. -/
def arguments (op : Operator) (operands : List Value) : List Value :=
  if op.isVariadic then spread operands else op.toArguments operands

/-- The mark of a path that starts in an enclosing context. -/
def parentMark : List Char := "_parent_".toList

/-- The first segment of the path of a variable, without the mark of a parent. -/
def basename? : Value → Option String
  | node .eval (string path :: _) =>
    let text := path.toList
    let text := if parentMark.isPrefixOf text then text.drop parentMark.length else text
    some (String.ofList (text.takeWhile (· ≠ '.')))
  | _ => none

end Value

end Latent

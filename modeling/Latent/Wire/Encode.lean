import Latent.Json.Printer
import Latent.Value.Basic
import Latent.Wire.Error
import Latent.Wire.Record

/-!
# Values as JSON

Nodes become tagged records; dates, date-times and durations become the records of nodes that evaluate
to them.  A number that equals a whole number of JSON is written as one, and one that is not finite
as null.  A time of day has no wire form: the first one makes encoding fail.
-/

namespace Latent

namespace Json

/-- A binary64 number: as a whole number when it equals one in range. -/
def ofFloat (x : Binary64) : Json :=
  match x.toInt? with
  | some i => if h : IsWhole i then .number (.whole i h) else ofBinary64 x
  | none => ofBinary64 x

/-- A decimal number: as a whole number of 64 bits, or as the nearest binary64 number. -/
def ofDecimal (d : Decimal) : Json :=
  match d.toInt64? with
  | some i => ofInt64 i
  | none => ofFloat d.toBinary64

/-- The fields of a node that evaluates to a date. -/
def dateFields (d : Date) : List Json :=
  [ofInt d.year, ofInt d.month, ofInt d.day, ofInt 0, ofInt 0, ofInt 0, .null]

/-- The further fields of a node that evaluates to a date-time. -/
def timeFields (t : TimeOfDay) : List Json :=
  [ofInt t.hour, ofInt t.minute, ofInt t.second, ofInt t.micros, ofInt 0, ofInt 0, ofInt 0, ofInt 0]

/-- The fields of a node that evaluates to a duration. -/
def durationFields (d : Duration) : List Json :=
  [ofInt d.components.days, ofInt d.components.seconds, ofInt d.components.micros]

end Json

namespace Value

mutual

/-- The JSON tree of a value. -/
def toJson : Value → Except WireError Json
  | null => .ok .null
  | boolean b => .ok (.boolean b)
  | integer i => .ok (.ofInt64 i)
  | float x => .ok (.ofFloat x)
  | decimal d => .ok (.ofDecimal d)
  | string s => .ok (.string s)
  | list items => do return .array (← itemsToJson items)
  | map entries => do return .object (← entriesToJson entries)
  | date d => .ok (.tagged .date (Json.dateFields d))
  | dateTime t => .ok (.tagged .dateTime (Json.dateFields t.date ++ Json.timeFields t.time))
  | time t => .error (.noWireForm t)
  | duration d => .ok (.tagged .timeDelta (Json.durationFields d))
  | node op operands => do return .tagged op (← itemsToJson operands)

/-- The trees of the items; the first failure is that of the whole. -/
def itemsToJson : List Value → Except WireError (List Json)
  | [] => .ok []
  | item :: rest => do return (← toJson item) :: (← itemsToJson rest)

/-- The trees that keys are bound to, likewise. -/
def entriesToJson : List (String × Value) → Except WireError (List (String × Json))
  | [] => .ok []
  | (key, value) :: rest => do return (key, ← toJson value) :: (← entriesToJson rest)

end

/-- The JSON text of a value. -/
def encode (v : Value) : Except WireError String := do return (← v.toJson).print

end Value

end Latent

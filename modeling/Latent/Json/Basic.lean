import Latent.Binary64.Rounding
import Latent.Numeral.Word
import Latent.Entries

/-!
# JSON trees

A number is a whole number between `-2^63` and `2^64 - 1` or a finite binary64 number; an object
keeps its entries in order.
-/

namespace Latent

/-- Between `-2^63` and `2^64 - 1`: the whole numbers that a JSON number holds exactly. -/
def Json.IsWhole (i : Int) : Prop :=
  -9223372036854775808 ≤ i ∧ i < 18446744073709551616

instance (i : Int) : Decidable (Json.IsWhole i) := inferInstanceAs (Decidable (_ ∧ _))

/-- A JSON number holds every whole number of 64 bits. -/
theorem InInt64.isWhole {i : Int} (h : InInt64 i) : Json.IsWhole i :=
  ⟨h.1, by have := h.2; omega⟩

/-- A JSON number. -/
inductive Json.Number where
  | whole (i : Int) (isWhole : Json.IsWhole i)
  | float (x : Binary64) (isFinite : x.isFinite = true)
  deriving DecidableEq

/-- A JSON tree. -/
inductive Json where
  | null
  | boolean (b : Bool)
  | number (n : Json.Number)
  | string (s : String)
  | array (items : List Json)
  | object (entries : List (String × Json))
  deriving Inhabited

namespace Json

namespace Number

/-- The number of a 64-bit whole number. -/
def ofInt64 (i : Int64) : Number :=
  .whole i.toInt ⟨(inInt64_toInt i).1, by have := (inInt64_toInt i).2; omega⟩

/-- The 64-bit whole number that is written, when one is written. -/
def toInt64? : Number → Option Int64
  | whole i _ => int64? i
  | float .. => none

/-- The nearest binary64 number. -/
def toBinary64 : Number → Binary64
  | whole i _ => .ofInt i
  | float x _ => x

end Number

/-- The number of a finite binary64 number; `null` for any other. -/
def ofBinary64 (x : Binary64) : Json :=
  if h : x.isFinite = true then .number (.float x h) else .null

/-- The number of a whole number; the nearest binary64 number when it is out of range. -/
def ofInt (i : Int) : Json :=
  if h : IsWhole i then .number (.whole i h) else ofBinary64 (.ofInt i)

/-- The number of a 64-bit whole number. -/
def ofInt64 (i : Int64) : Json := .number (.ofInt64 i)

end Json

end Latent

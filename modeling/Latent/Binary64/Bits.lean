import Latent.Binary64.Basic

/-!
# The 64-bit interchange form

One sign bit, eleven exponent bits, fifty-two fraction bits.  `ofBits` reads any 64 bits, every
`nan` alike; `toBits` writes `nan` as `7ff8000000000000`.
-/

namespace Latent

namespace Binary64

/-- The units of a finite number with the given exponent and fraction fields. -/
def unitsOfFields (exponent fraction : Nat) : Nat :=
  if exponent = 0 then fraction else (Nat.pow 2 52 + fraction) * Nat.pow 2 (exponent - 1)

/-- The exponent and fraction fields of a count of units that fits. -/
def fieldsOfUnits (units : Nat) : Nat × Nat :=
  if units < Nat.pow 2 52 then (0, units)
  else (units.log2 - 51, units / gap units - Nat.pow 2 52)

/-- The number that 64 bits stand for: a sign, an exponent field and a fraction field. -/
def ofBits (bits : UInt64) : Binary64 :=
  let n := bits.toNat
  let negative := decide (n / Nat.pow 2 63 = 1)
  let exponent := n / Nat.pow 2 52 % Nat.pow 2 11
  let fraction := n % Nat.pow 2 52
  if exponent = 2047 then
    if fraction = 0 then .infinite negative else .nan
  else ofUnits negative (unitsOfFields exponent fraction)

/-- The 64 bits of a number.  Of the patterns that stand for `nan`, the quiet one is taken. -/
def toBits (x : Binary64) : UInt64 :=
  let assemble (negative : Bool) (fields : Nat × Nat) : UInt64 :=
    UInt64.ofNat ((if negative then Nat.pow 2 63 else 0) + fields.1 * Nat.pow 2 52 + fields.2)
  match x with
  | .nan => assemble false (2047, Nat.pow 2 51)
  | .infinite negative => assemble negative (2047, 0)
  | .finite negative units _ => assemble negative (fieldsOfUnits units)

end Binary64

end Latent

import Latent.Binary64.Basic

/-!
# Rounding to binary64, and arithmetic

`ofQuotient` is the only rounding: it takes an exact quotient of units to the nearest number of the
format, a tie to the even neighbour.  Sums, products, quotients, whole numbers and decimal
scientific notation are exact quotients of units, rounded once.
-/

namespace Latent

namespace Binary64

/-- `num / den` to the nearest whole number, a half to the even neighbour. -/
def roundHalfEven (num den : Nat) : Nat :=
  let whole := num / den
  let rest := num % den
  if 2 * rest < den ∨ (2 * rest = den ∧ whole % 2 = 0) then whole else whole + 1

/-- The number nearest to `num / den` units. -/
def ofQuotient (negative : Bool) (num den : Nat) : Binary64 :=
  let step := gap (num / den)
  ofUnits negative (step * roundHalfEven num (den * step))

/-- The number nearest to a whole number. -/
def ofInt (i : Int) : Binary64 :=
  ofQuotient (decide (i < 0)) (i.natAbs * unitsPerOne) 1

/-- The number nearest to `digits · 10^exponent`.  Beyond `10^310` everything is infinite and below
`10^-324` everything is zero, which is decided without computing the power. -/
def ofScientific (negative : Bool) (digits : Nat) (exponent : Int) : Binary64 :=
  if digits = 0 then zero negative
  else if 310 < exponent then .infinite negative
  else if exponent + digits.log2 + 1 < -324 then zero negative
  else if 0 ≤ exponent then
    ofQuotient negative (digits * Nat.pow 10 exponent.toNat * unitsPerOne) 1
  else
    ofQuotient negative (digits * unitsPerOne) (Nat.pow 10 (-exponent).toNat)

/-- Sum.  An exact zero is positive unless both terms are negative zeros. -/
def add : Binary64 → Binary64 → Binary64
  | nan, _ => nan
  | _, nan => nan
  | infinite s, infinite t => if s = t then infinite s else nan
  | infinite s, finite .. => infinite s
  | finite .., infinite t => infinite t
  | finite s u _, finite t v _ =>
    let sum := signed s u + signed t v
    if sum = 0 then zero (s && t) else ofQuotient (decide (sum < 0)) sum.natAbs 1

/-- Product. -/
def mul : Binary64 → Binary64 → Binary64
  | nan, _ => nan
  | _, nan => nan
  | infinite s, infinite t => infinite (s ^^ t)
  | infinite s, finite t v _ => if v = 0 then nan else infinite (s ^^ t)
  | finite s u _, infinite t => if u = 0 then nan else infinite (s ^^ t)
  | finite s u _, finite t v _ => ofQuotient (s ^^ t) (u * v) unitsPerOne

/-- Quotient. -/
def div : Binary64 → Binary64 → Binary64
  | nan, _ => nan
  | _, nan => nan
  | infinite _, infinite _ => nan
  | infinite s, finite t _ _ => infinite (s ^^ t)
  | finite s _ _, infinite t => zero (s ^^ t)
  | finite s u _, finite t v _ =>
    if v = 0 then (if u = 0 then nan else infinite (s ^^ t))
    else ofQuotient (s ^^ t) (u * unitsPerOne) v

/-- Sums are rounded. -/
instance : Add Binary64 := ⟨add⟩

/-- Products are rounded. -/
instance : Mul Binary64 := ⟨mul⟩

/-- Quotients are rounded. -/
instance : Div Binary64 := ⟨div⟩

/-- A literal is the number nearest to it. -/
instance (n : Nat) : OfNat Binary64 n := ⟨ofInt n⟩

/-- Below a power of two in size. -/
def belowPowerOfTwo (x : Binary64) (exponent : Nat) : Bool :=
  match x with
  | finite _ units _ => units < unitsPerOne * Nat.pow 2 exponent
  | _ => false

end Binary64

end Latent

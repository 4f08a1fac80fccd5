import Latent.Numeral.Reading
import Latent.Numeral.Word

/-!
# Decimal numbers

A decimal number is `digits · 10^(-scale)`.  The scale is kept as given: `1.50` and `1.5` are
different decimals of the same value.
-/

namespace Latent

/-- The number `digits · 10^(-scale)`. -/
structure Decimal where
  digits : Int
  scale : Int
  deriving DecidableEq, Repr

namespace Decimal

/-- The size of a decimal, without its sign. -/
def magnitude (d : Decimal) : Scientific := ⟨d.digits.natAbs, -d.scale⟩

/-- Zero, with whatever scale and sign. -/
def isZero (d : Decimal) : Bool := d.digits = 0

/-! ## Value -/

/-- Drops the last digit while it is a zero, up to `fuel` times. -/
def dropZeros : Nat → Decimal → Decimal
  | 0, d => d
  | fuel + 1, d => if d.digits % 10 = 0 then dropZeros fuel ⟨d.digits / 10, d.scale - 1⟩ else d

/-- The one decimal of the same value without a zero at its end; zero has scale zero. -/
def reduce (d : Decimal) : Decimal :=
  if d.digits = 0 then ⟨0, 0⟩ else dropZeros (d.magnitude.digitText.length) d

/-- Equality of value. -/
def sameValue (a b : Decimal) : Bool := a.reduce = b.reduce

/-- The 64-bit whole number that a decimal equals, if it equals one.  A decimal with a scale below
`-19` is too large, and one with a scale above the number of its digits is not whole: both are told
without computing the power. -/
def toInt64? (d : Decimal) : Option Int64 :=
  if d.digits = 0 then some 0
  else if d.scale < -19 ∨ d.magnitude.digitText.length < d.scale then none
  else if d.scale ≤ 0 then int64? (d.digits * Nat.pow 10 (-d.scale).toNat)
  else if d.digits % Nat.pow 10 d.scale.toNat = 0 then
    int64? (d.digits / Nat.pow 10 d.scale.toNat)
  else none

/-- The nearest binary64 number. -/
def toBinary64 (d : Decimal) : Binary64 :=
  .ofDecimal (decide (d.digits < 0)) d.magnitude

/-! ## Text -/

/-- So many zeros may stand between the point and the first digit. -/
def maxLeadingZeros : Nat := 5

/-- So many zeros of a negative scale are written out. -/
def maxTrailingZeros : Nat := 15

/-- All digits, with the scale kept: `1.50`.  A decimal with a long run of zeros after the point is
normalised (`1.23E-8`), one with a long run of zeros at its end keeps them as an exponent
(`12e+16`). -/
def text (d : Decimal) : List Char :=
  if d.digits = 0 then ['0']
  else
    (if d.digits < 0 then ['-'] else []) ++
      if d.scale < -(maxTrailingZeros : Int) then
        d.magnitude.digitText ++ 'e' :: Scientific.signedText (-d.scale)
      else if (maxLeadingZeros : Int) < d.scale - d.magnitude.digitText.length then
        d.magnitude.normalised 'E'
      else d.magnitude.positional

end Decimal

end Latent

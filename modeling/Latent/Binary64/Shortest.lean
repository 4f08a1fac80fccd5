import Latent.Binary64.Basic
import Latent.Numeral.Scientific

/-!
# Shortest decimal digits

The decimal `digits · 10^exponent` *reads back* as a number when it lies in the interval of reals
that round to it.  `shortest` looks for such a decimal on coarser to finer grids: of one significant
digit, of two, and so on, trying on each grid the two neighbours of the number.  The first grid with
a hit decides how many digits are written; of two hits the nearer is taken, and `Tie` decides a tie.
Seventeen digits always suffice.
-/

namespace Latent

/-- Which of two equally near decimals is taken. -/
inductive Tie where
  | away
  | even
  deriving DecidableEq

namespace Binary64

/-- Twice the ends of the interval that rounds to a positive count of units.  The gap below a power
of two is half the gap above it. -/
def doubledInterval (units : Nat) : Nat × Nat :=
  let below := if units = Nat.pow 2 units.log2 ∧ 1 < gap units then gap units / 2 else gap units
  (2 * units - below, 2 * units + gap units)

/-- The quotient of a decimal and half a unit, as numerator and denominator. -/
def doubledUnits (s : Scientific) : Nat × Nat :=
  if 0 ≤ s.exponent then (s.digits * Nat.pow 10 s.exponent.toNat * (2 * unitsPerOne), 1)
  else (s.digits * (2 * unitsPerOne), Nat.pow 10 (-s.exponent).toNat)

/-- The decimal rounds to the given count of units: it lies inside the interval, or at an end of it
when the count is even among its neighbours. -/
def readsBack (units : Nat) (s : Scientific) : Bool :=
  let (low, high) := doubledInterval units
  let (num, den) := doubledUnits s
  if units / gap units % 2 = 0 then low * den ≤ num && num ≤ high * den
  else low * den < num && num < high * den

/-- The exponent of the leading decimal digit of a positive count of units: one unit is more than
`10^-324`. -/
def leadingExponent (units : Nat) : Int :=
  ((Nat.toDigits 10 (units * Nat.pow 10 324 / unitsPerOne)).length : Int) - 325

/-- The units of `count` steps of `10^exponent`, and the units of the number, on a common scale. -/
def onGrid (units : Nat) (exponent : Int) : Nat × Nat :=
  if 0 ≤ exponent then (units, unitsPerOne * Nat.pow 10 exponent.toNat)
  else (units * Nat.pow 10 (-exponent).toNat, unitsPerOne)

/-- The decimal with the step `10^exponent` that is taken for a number, if one reads back. -/
def onStep (tie : Tie) (units : Nat) (exponent : Int) : Option Scientific :=
  let (num, step) := onGrid units exponent
  let count := num / step
  let lower : Scientific := ⟨count, exponent⟩
  let upper : Scientific := ⟨count + 1, exponent⟩
  let twiceRest := 2 * (num % step)
  let preferUpper := match tie with
    | .away => decide (step ≤ twiceRest)
    | .even => decide (step < twiceRest) || (decide (step = twiceRest) && count % 2 = 1)
  match readsBack units lower, readsBack units upper with
  | true, true => some (if preferUpper then upper else lower)
  | true, false => some lower
  | false, true => some upper
  | false, false => none

/-- Moves the zeros at the end of the digits into the exponent. -/
def stripZeros : Nat → Scientific → Scientific
  | 0, s => s
  | fuel + 1, s =>
    if s.digits ≠ 0 ∧ s.digits % 10 = 0 then stripZeros fuel ⟨s.digits / 10, s.exponent + 1⟩ else s

/-- The shortest decimal that reads back as a positive count of units, nearest to it. -/
def shortest (tie : Tie) (units : Nat) : Scientific :=
  let lead := leadingExponent units
  let found := (List.range 17).findSome? fun (n : Nat) => onStep tie units (lead - n)
  stripZeros 17 (found.getD ⟨0, 0⟩)

end Binary64

end Latent

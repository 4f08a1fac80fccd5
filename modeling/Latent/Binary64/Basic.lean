/-!
# Binary64 numbers

A finite number of the binary64 format is a whole count of *units* of `2^-1074`, its least positive
number, and it has a sign.  A count fits the format when it has at most 53 significant bits and
stays below `2^2098`.  Every operation is therefore exact arithmetic on whole numbers, followed by
at most one rounding (`Latent.Binary64.Rounding`).

There is one `nan`: its payload is never looked at.
-/

namespace Latent

/-- So many units make `1`. -/
def Binary64.unitsPerOne : Nat := Nat.pow 2 1074

/-- No finite number has so many units. -/
def Binary64.unitLimit : Nat := Nat.pow 2 2098

/-- The distance from a count of units to the next larger count that fits. -/
def Binary64.gap (units : Nat) : Nat := Nat.pow 2 (units.log2 - 52)

/-- A count of units fits when it is below `unitLimit` and a multiple of its own `gap`. -/
def Binary64.Fits (units : Nat) : Prop :=
  units < Binary64.unitLimit ∧ units % Binary64.gap units = 0

/-- Whether units fit is decided, so that tests of finite numbers can run. -/
instance (units : Nat) : Decidable (Binary64.Fits units) :=
  inferInstanceAs (Decidable (_ ∧ _))

/-- A number of the binary64 format. -/
inductive Binary64 where
  | nan
  | infinite (negative : Bool)
  | finite (negative : Bool) (units : Nat) (fits : Binary64.Fits units)
  deriving DecidableEq

namespace Binary64

/-- Zero fits. -/
theorem fits_zero : Fits 0 :=
  ⟨by decide +kernel, Nat.zero_mod _⟩

/-- The zero of the given sign. -/
def zero (negative : Bool) : Binary64 := .finite negative 0 fits_zero

/-- Zero stands where no number is known. -/
instance : Inhabited Binary64 := ⟨zero false⟩

/-- The number with the given sign and count of units; infinite when the count does not fit. -/
def ofUnits (negative : Bool) (units : Nat) : Binary64 :=
  if fits : Fits units then .finite negative units fits else .infinite negative

/-! ## Views -/

/-- Neither infinite nor `nan`. -/
def isFinite : Binary64 → Bool
  | finite .. => true
  | _ => false

/-- The number that is no number. -/
def isNan : Binary64 → Bool
  | nan => true
  | _ => false

/-- A whole number with the sign applied. -/
def signed (negative : Bool) (n : Nat) : Int := if negative then -(n : Int) else n

/-- The whole number that a number equals, when it equals one. -/
def toInt? : Binary64 → Option Int
  | finite negative units _ =>
    if units % unitsPerOne = 0 then some (signed negative (units / unitsPerOne)) else none
  | _ => none

/-- The whole part of a finite number, towards zero. -/
def truncate? : Binary64 → Option Int
  | finite negative units _ => some (signed negative (units / unitsPerOne))
  | _ => none

/-- The whole number nearest to a finite number, a half away from zero. -/
def nearestInt? : Binary64 → Option Int
  | finite negative units _ =>
    some (signed negative ((2 * units + unitsPerOne) / (2 * unitsPerOne)))
  | _ => none

/-- Zero of either sign. -/
def isZero : Binary64 → Bool
  | finite _ units _ => units = 0
  | _ => false

/-! ## Order

`nan` has no place in the order: each comparison with it is false. -/

/-- The place of a number among the others: its signed units, infinity past all of them. -/
def rank? : Binary64 → Option Int
  | nan => none
  | infinite negative => some (signed negative unitLimit)
  | finite negative units _ => some (signed negative units)

/-- Two numbers compare as their places do. -/
def compare (holds : Int → Int → Bool) (x y : Binary64) : Bool :=
  match x.rank?, y.rank? with
  | some a, some b => holds a b
  | _, _ => false

/-- Numeric equality: the two zeros are equal, `nan` equals nothing. -/
def eq (x y : Binary64) : Bool := compare (fun a b => decide (a = b)) x y

/-- The first number is less than the second. -/
def lt (x y : Binary64) : Bool := compare (fun a b => decide (a < b)) x y

/-- The first number is less than the second, or equal to it. -/
def le (x y : Binary64) : Bool := compare (fun a b => decide (a ≤ b)) x y

end Binary64

end Latent

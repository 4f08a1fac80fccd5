import Latent.Value.Basic

/-!
# Equalities of values

`same` is structural equality in which a number may be a whole number or the binary64 number equal to
it, a decimal equals any decimal of its value, and the order of the entries of a map does not matter.
`looselyEqual` is the equality of the operator `Equal`: it also compares numbers across all their
forms.
-/

namespace Latent

namespace Value

mutual

/-- Structural equality. -/
def same : Value → Value → Bool
  | null, null => true
  | boolean a, boolean b => a = b
  | integer a, integer b => a = b
  | float a, float b => a.eq b
  | integer a, float b => b.toInt64? = some a
  | float a, integer b => a.toInt64? = some b
  | decimal a, decimal b => a.sameValue b
  | string a, string b => a = b
  | list a, list b => sameItems a b
  | map a, map b => a.length = b.length && sameEntries a b
  | date a, date b => a = b
  | dateTime a, dateTime b => a = b
  | time a, time b => a = b
  | duration a, duration b => a = b
  | node f a, node g b => f = g && sameItems a b
  | _, _ => false

/-- Lists of the same length with the same items. -/
def sameItems : List Value → List Value → Bool
  | [], [] => true
  | a :: as, b :: bs => same a b && sameItems as bs
  | _, _ => false

/-- Every entry of the first map is bound to the same value in the second. -/
def sameEntries : List (String × Value) → List (String × Value) → Bool
  | [], _ => true
  | (key, a) :: rest, other =>
    (match Entries.find? key other with
      | some b => same a b
      | none => false) && sameEntries rest other

end

/-- Equality of numbers, and of everything that is not compared by its parts. -/
def looselyEqualLeaves (a b : Value) : Bool :=
  match a, b with
  | date a, date b => a = b
  | dateTime a, dateTime b => a = b
  | date _, _ | _, date _ => false
  | dateTime _, _ | _, dateTime _ => false
  | decimal a, decimal b => a.sameValue b
  | a, b =>
    match a.toBinary64?, b.toBinary64? with
    | some x, some y => x.eq y
    | _, _ => same a b

mutual

/-- Equality across the forms of a number, through lists and maps. -/
def looselyEqual : Value → Value → Bool
  | list a, list b => looselyEqualItems a b
  | map a, map b => a.length = b.length && looselyEqualEntries a b
  | a, b => looselyEqualLeaves a b

/-- Items are loosely equal one by one. -/
def looselyEqualItems : List Value → List Value → Bool
  | [], [] => true
  | a :: as, b :: bs => looselyEqual a b && looselyEqualItems as bs
  | _, _ => false

/-- Every key of the first map is bound in the second one, to a value that is loosely equal. -/
def looselyEqualEntries : List (String × Value) → List (String × Value) → Bool
  | [], _ => true
  | (key, a) :: rest, other =>
    (match Entries.find? key other with
      | some b => looselyEqual a b
      | none => false) && looselyEqualEntries rest other

end

end Value

end Latent

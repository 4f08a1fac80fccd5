/-!
# Kinds

The abstract categories of what a value evaluates to, and sets of them.  Integers are numbers; lists,
maps and calendar values are composites; `any` is declared by null alone.
-/

namespace Latent

/-- A category of values. -/
inductive Kind where
  | boolean
  | number
  | string
  | composite
  | any
  deriving DecidableEq, Repr

namespace Kind

/-- All kinds, in the order in which a set lists them. -/
def all : List Kind := [boolean, number, string, composite, any]

/-- The name of a kind. -/
def name : Kind → String
  | boolean => "Boolean"
  | number => "Number"
  | string => "String"
  | composite => "Composite"
  | any => "Any"

/-- The kind of the given name. -/
def ofName? (name : String) : Option Kind := all.find? fun kind => kind.name = name

end Kind

/-- A set of kinds. -/
structure KindSet where
  boolean : Bool
  number : Bool
  string : Bool
  composite : Bool
  any : Bool
  deriving DecidableEq, Repr

namespace KindSet

/-- No kind. -/
def empty : KindSet := ⟨false, false, false, false, false⟩

/-- The kind is in the set. -/
def contains (s : KindSet) : Kind → Bool
  | .boolean => s.boolean
  | .number => s.number
  | .string => s.string
  | .composite => s.composite
  | .any => s.any

/-- The set with one more kind. -/
def insert (s : KindSet) : Kind → KindSet
  | .boolean => { s with boolean := true }
  | .number => { s with number := true }
  | .string => { s with string := true }
  | .composite => { s with composite := true }
  | .any => { s with any := true }

/-- The set of the given kinds. -/
def ofList (kinds : List Kind) : KindSet := kinds.foldl insert empty

/-- The set of one kind. -/
def singleton (kind : Kind) : KindSet := empty.insert kind

/-- The kinds of a set, in order. -/
def toList (s : KindSet) : List Kind := Kind.all.filter s.contains

/-- The kinds of either set. -/
def union (s t : KindSet) : KindSet :=
  ⟨s.boolean || t.boolean, s.number || t.number, s.string || t.string,
    s.composite || t.composite, s.any || t.any⟩

/-- There is no kind in the set. -/
def isEmpty (s : KindSet) : Bool := s = empty

/-- Every kind of `s` is in `t`. -/
def subset (s t : KindSet) : Bool := Kind.all.all fun kind => !s.contains kind || t.contains kind

/-- Not empty, and every kind is in `t`. -/
def isWithin (s t : KindSet) : Bool := !s.isEmpty && s.subset t

/-- `\x7bNumber, String\x7d`: the names in order, between braces. -/
def text (s : KindSet) : String :=
  "\x7b" ++ ", ".intercalate (s.toList.map Kind.name) ++ "\x7d"

end KindSet

end Latent

/-!
# Sets of code points

A set is given by the places where membership changes, in increasing order: the first code point in
it, the next one outside it, and so on.
-/

namespace Latent.Text

/-- Membership in the set whose membership changes at each of `changes`: an odd number of changes
has happened. -/
def memberOf (changes : List Nat) (c : Char) : Bool :=
  (changes.takeWhile (· ≤ c.toNat)).length % 2 = 1

end Latent.Text

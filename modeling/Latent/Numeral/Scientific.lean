/-!
# Decimals and their spellings

A `Scientific` is `digits · 10^exponent`.  It is spelled positionally, with a point or zeros at the
end, or normalised, with one digit before the point and an exponent after a mark.
-/

namespace Latent

/-- The decimal `digits · 10^exponent`. -/
structure Scientific where
  digits : Nat
  exponent : Int
  deriving DecidableEq, Repr

namespace Scientific

/-- The decimal digits, without the exponent. -/
def digitText (s : Scientific) : List Char := Nat.toDigits 10 s.digits

/-- The exponent of the first digit. -/
def leadingExponent (s : Scientific) : Int := s.digitText.length - 1 + s.exponent

/-- `1234.5`, `0.00012`, `12000`: all digits in their places, no exponent. -/
def positional (s : Scientific) : List Char :=
  let digits := s.digitText
  let places := (-s.exponent).toNat
  if 0 ≤ s.exponent then digits ++ List.replicate s.exponent.toNat '0'
  else if places < digits.length then
    digits.take (digits.length - places) ++ '.' :: digits.drop (digits.length - places)
  else '0' :: '.' :: (List.replicate (places - digits.length) '0' ++ digits)

/-- A sign, always written, and the digits of a whole number: `+20`, `-7`. -/
def signedText (i : Int) : List Char :=
  (if i < 0 then '-' else '+') :: Nat.toDigits 10 i.natAbs

/-- `1.25e-7`: one digit before the point, and the exponent with its sign after `mark`. -/
def normalised (mark : Char) (s : Scientific) : List Char :=
  match s.digitText with
  | [] => []
  | [d] => d :: mark :: signedText s.leadingExponent
  | d :: rest => d :: '.' :: (rest ++ mark :: signedText s.leadingExponent)

end Scientific

/-- The digits of a whole number, with a sign only when it is negative. -/
def intText (i : Int) : List Char :=
  (if i < 0 then ['-'] else []) ++ Nat.toDigits 10 i.natAbs

end Latent

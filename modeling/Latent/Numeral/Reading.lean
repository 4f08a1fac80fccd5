import Latent.Binary64.Rounding
import Latent.Numeral.Scientific

/-!
# Reading numbers

Decimal numerals with an optional point and exponent.  Every reader takes a whole text: `none` means
that the text is not a number.
-/

namespace Latent

namespace Scientific

/-- A run of digits as a number, when there is at least one and nothing else. -/
def natOfText? (text : List Char) : Option Nat :=
  if text ≠ [] ∧ text.all Char.isDigit then some (Nat.ofDigitChars 10 text 0) else none

/-- Digits with an optional sign. -/
def intOfText? : List Char → Option Int
  | '+' :: text => (natOfText? text).map Int.ofNat
  | '-' :: text => (natOfText? text).map (- Int.ofNat ·)
  | text => (natOfText? text).map Int.ofNat

/-- Nothing, or an exponent mark and an exponent. -/
def exponentOfText? : List Char → Option Int
  | [] => some 0
  | mark :: text => if mark = 'e' ∨ mark = 'E' then intOfText? text else none

/-- The decimal with the given digits before and after the point. -/
def ofParts (whole fraction : List Char) (exponent : Int) : Scientific :=
  ⟨Nat.ofDigitChars 10 (whole ++ fraction) 0, exponent - fraction.length⟩

/-- Digits, an optional point and more digits, an optional exponent: `12`, `5.`, `.5`, `1.5e-3`.
One of the two runs of digits may be empty. -/
def ofText? (text : List Char) : Option Scientific :=
  let whole := text.takeWhile Char.isDigit
  let rest := text.dropWhile Char.isDigit
  let (fraction, rest) := match rest with
    | '.' :: rest => (rest.takeWhile Char.isDigit, rest.dropWhile Char.isDigit)
    | rest => ([], rest)
  if whole = [] ∧ fraction = [] then none
  else (exponentOfText? rest).map (ofParts whole fraction)

end Scientific

namespace Binary64

/-- The number nearest to a decimal. -/
def ofDecimal (negative : Bool) (s : Scientific) : Binary64 :=
  ofScientific negative s.digits s.exponent

/-- An unsigned number, or one of the words `inf`, `infinity` and `nan` in any case. -/
def ofUnsignedText? (negative : Bool) (text : List Char) : Option Binary64 :=
  let word := text.map Char.toLower
  if word = ['n', 'a', 'n'] then some nan
  else if word = ['i', 'n', 'f'] ∨ word = ['i', 'n', 'f', 'i', 'n', 'i', 't', 'y'] then
    some (.infinite negative)
  else (Scientific.ofText? text).map (ofDecimal negative)

/-- A number with an optional sign, rounded to nearest; one too large is infinite. -/
def ofText? : List Char → Option Binary64
  | '-' :: text => ofUnsignedText? true text
  | '+' :: text => ofUnsignedText? false text
  | text => ofUnsignedText? false text

end Binary64

end Latent

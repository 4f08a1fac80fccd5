import Latent.Json.Basic
import Latent.Numeral.Reading
import Latent.Text.Quoted

/-!
# Reading JSON text

Strict JSON.  Arrays and objects nest at most `maxNesting` deep; a repeated key of an object keeps
its first place and takes its last value; a number beyond the binary64 range is refused.

A number with a fraction or an exponent is read as the binary64 number nearest to what is written, ties to
even.  The JSON library that stands here in the program reads such numbers by a best effort in its default
setting, and may miss the nearest one by a unit in the last place: what is proved of whole texts takes it
that the text layer loses nothing there.

A reader takes a text and answers what it read and the text that is left, or nothing.
-/

namespace Latent

namespace Json.Reading

/-- A reader of `α` from the start of a text. -/
abbrev Reads (α : Type) := List Char → Option (α × List Char)

/-- The deepest nesting of arrays and objects that is read. -/
def maxNesting : Nat := 127

/-- The blanks between tokens. -/
def isSpace (c : Char) : Bool := c = ' ' || c = '\t' || c = '\n' || c = '\r'

/-- What follows the white space. -/
def skipSpace (text : List Char) : List Char := text.dropWhile isSpace

/-! ## Strings -/

/-- The character that a one-letter escape stands for. -/
def escapeOf? (c : Char) : Option Char :=
  if c = '"' ∨ c = '\\' ∨ c = '/' then some c
  else if c = 'b' then some '\x08'
  else if c = 'f' then some '\x0c'
  else if c = 'n' then some '\n'
  else if c = 'r' then some '\r'
  else if c = 't' then some '\t'
  else none

/-- The code point of a leading and a trailing surrogate. -/
def ofSurrogates? (leading trailing : Nat) : Option Char :=
  if 0xdc00 ≤ trailing ∧ trailing ≤ 0xdfff then
    Text.charOfCode? (0x10000 + (leading - 0xd800) * 0x400 + (trailing - 0xdc00))
  else none

/-- Adds a character in front of what was read. -/
def prepend {α : Type} (item : α) (read : List α × List Char) : List α × List Char :=
  (item :: read.1, read.2)

/-- The rest of a string after its opening quote, up to and including the closing one. -/
def stringBody : Reads (List Char)
  | [] => none
  | '"' :: rest => some ([], rest)
  | '\\' :: 'u' :: a :: b :: c :: d :: rest =>
    match Text.hex4? a b c d with
    | none => none
    | some code =>
      if 0xd800 ≤ code ∧ code ≤ 0xdbff then
        match rest with
        | '\\' :: 'u' :: e :: f :: g :: h :: rest =>
          match (Text.hex4? e f g h).bind (ofSurrogates? code) with
          | none => none
          | some char => (stringBody rest).map (prepend char)
        | _ => none
      else
        match Text.charOfCode? code with
        | none => none
        | some char => (stringBody rest).map (prepend char)
  | '\\' :: c :: rest =>
    match escapeOf? c with
    | none => none
    | some char => (stringBody rest).map (prepend char)
  | c :: rest =>
    if c = '\\' ∨ c.toNat < 0x20 then none else (stringBody rest).map (prepend c)

/-- A text between quotes. -/
def quotedString : Reads String
  | '"' :: rest => (stringBody rest).map fun read => (String.ofList read.1, read.2)
  | _ => none

/-! ## Numbers -/

/-- A non-empty run of digits. -/
def digits : Reads (List Char) := fun text =>
  let run := text.takeWhile Char.isDigit
  if run = [] then none else some (run, text.dropWhile Char.isDigit)

/-- The digits before the point: a single zero, or digits that do not begin with one. -/
def wholeDigits : Reads (List Char) := fun text =>
  match digits text with
  | some (run, rest) => if 1 < run.length ∧ run.head? = some '0' then none else some (run, rest)
  | none => none

/-- The digits after a point, when there is one. -/
def fractionDigits : Reads (Option (List Char))
  | '.' :: text => (digits text).map fun read => (some read.1, read.2)
  | text => some (none, text)

/-- The exponent after its mark, when there is one. -/
def exponent : Reads (Option Int) := fun text =>
  match text with
  | [] => some (none, [])
  | mark :: rest =>
    if mark = 'e' ∨ mark = 'E' then
      let (negative, rest) := match rest with
        | '-' :: rest => (true, rest)
        | '+' :: rest => (false, rest)
        | rest => (false, rest)
      (digits rest).map fun read =>
        (some (Binary64.signed negative (Nat.ofDigitChars 10 read.1 0)), read.2)
    else some (none, text)

/-- A float, unless it is infinite. -/
def floatNumber? (x : Binary64) : Option Number :=
  if h : x.isFinite = true then some (.float x h) else none

/-- The number of digits without a fraction or exponent: whole when it fits, and `-0` is a float. -/
def wholeNumber? (negative : Bool) (n : Nat) : Option Number :=
  let i := Binary64.signed negative n
  if h : IsWhole i then
    if negative ∧ n = 0 then floatNumber? (.zero true) else some (.whole i h)
  else floatNumber? (.ofInt i)

/-- The number that the parts of a numeral spell. -/
def numberOf? (negative : Bool) (whole : List Char) (fraction : Option (List Char))
    (exponent : Option Int) : Option Number :=
  match fraction, exponent with
  | none, none => wholeNumber? negative (Nat.ofDigitChars 10 whole 0)
  | fraction, exponent =>
    floatNumber? (.ofDecimal negative
      (Scientific.ofParts whole (fraction.getD []) (exponent.getD 0)))

/-- A number: its sign, its whole digits, its fraction and its exponent. -/
def number : Reads Number := fun text => do
  let (negative, text) := match text with
    | '-' :: text => (true, text)
    | text => (false, text)
  let (whole, text) ← wholeDigits text
  let (fraction, text) ← fractionDigits text
  let (exponent, text) ← exponent text
  let n ← numberOf? negative whole fraction exponent
  return (n, text)

/-! ## Trees -/

/-- One or more items with commas between them, up to and including `close`.  Each item takes at
least one character, so `fuel` may be the length of the text. -/
def itemsUntil {α : Type} (close : Char) (item : Reads α) : Nat → Reads (List α)
  | 0, _ => none
  | fuel + 1, text =>
    match item text with
    | none => none
    | some (first, rest) =>
      match skipSpace rest with
      | [] => none
      | c :: rest =>
        if c = close then some ([first], rest)
        else if c = ',' then (itemsUntil close item fuel rest).map (prepend first)
        else none

/-- Items with commas between them, or none at all, up to and including `close`. -/
def listUntil {α : Type} (close : Char) (item : Reads α) : Reads (List α) := fun text =>
  match skipSpace text with
  | [] => none
  | c :: rest =>
    if c = close then some ([], rest) else itemsUntil close item text.length (c :: rest)

/-- A key, a colon and a value. -/
def member (value : Reads Json) : Reads (String × Json) := fun text =>
  match quotedString (skipSpace text) with
  | none => none
  | some (key, rest) =>
    match skipSpace rest with
    | ':' :: rest => (value rest).map fun read => ((key, read.1), read.2)
    | _ => none

/-- A tree that is no array and no object. -/
def scalar : Reads Json
  | 'n' :: 'u' :: 'l' :: 'l' :: rest => some (.null, rest)
  | 't' :: 'r' :: 'u' :: 'e' :: rest => some (.boolean true, rest)
  | 'f' :: 'a' :: 'l' :: 's' :: 'e' :: rest => some (.boolean false, rest)
  | '"' :: rest => (quotedString ('"' :: rest)).map fun read => (.string read.1, read.2)
  | text => (number text).map fun read => (.number read.1, read.2)

/-- A tree with at most `levels` levels of arrays and objects. -/
def tree : Nat → Reads Json
  | 0, text => scalar (skipSpace text)
  | levels + 1, text =>
    match skipSpace text with
    | '[' :: rest => (listUntil ']' (tree levels) rest).map fun read => (.array read.1, read.2)
    | '\x7b' :: rest =>
      (listUntil '\x7d' (member (tree levels)) rest).map fun read =>
        (.object (Entries.ofPairs read.1), read.2)
    | text => scalar text

/-- The tree that a whole text spells, with at most `levels` levels of arrays and objects. -/
def ofTextWithin? (levels : Nat) (text : List Char) : Option Json :=
  match tree levels text with
  | some (json, rest) => if skipSpace rest = [] then some json else none
  | none => none

end Json.Reading

/-- The tree that a whole text spells. -/
def Json.read? (text : String) : Option Json :=
  Json.Reading.ofTextWithin? Json.Reading.maxNesting text.toList

end Latent

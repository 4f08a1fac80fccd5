import Latent.Syntax.Token
import Latent.Text.Blank
import Latent.Text.Letter
import Latent.Text.Quoted

/-!
# From text to tokens

Blanks separate tokens and are not kept.  A token always takes at least one character, so a text has
at most as many tokens as characters, and one `eof` after them.  What is no token becomes an `invalid`
one, and reading goes on behind it.
-/

namespace Latent

namespace Lexer

/-! ## Words and numbers -/

/-- A word begins with a letter or an underscore. -/
def beginsWord (c : Char) : Bool := Text.isAlphabetic c || c = '_'

/-- A word goes on with letters, numerals and underscores. -/
def continuesWord (c : Char) : Bool := Text.isAlphabetic c || Text.isNumeric c || c = '_'

/-- A word as a keyword or an identifier. -/
def wordToken (word : List Char) : Token :=
  (Token.ofKeyword? (String.ofList word)).getD (.identifier (String.ofList word))

/-- The text as long as digits go on, and what follows. -/
def digitRun (text : List Char) : List Char × List Char :=
  (text.takeWhile Char.isDigit, text.dropWhile Char.isDigit)

/-- A point and digits, if the text begins with a point. -/
def fractionRun : List Char → List Char × List Char
  | '.' :: text => ('.' :: (digitRun text).1, (digitRun text).2)
  | text => ([], text)

/-- A sign, if the text begins with one. -/
def signRun : List Char → List Char × List Char
  | '+' :: text => (['+'], text)
  | '-' :: text => (['-'], text)
  | text => ([], text)

/-- An exponent with its mark, if the text begins with the mark. -/
def exponentRun : List Char → List Char × List Char
  | [] => ([], [])
  | c :: text =>
    if c = 'e' ∨ c = 'E' then
      let (sign, text) := signRun text
      (c :: (sign ++ (digitRun text).1), (digitRun text).2)
    else ([], c :: text)

/-- Digits, a fraction and an exponent, each as long as it goes, and what follows.  The digits after
a point or an exponent mark may be missing. -/
def numberRun (text : List Char) : List Char × List Char :=
  let (whole, text) := digitRun text
  let (fraction, text) := fractionRun text
  let (exponent, text) := exponentRun text
  (whole ++ (fraction ++ exponent), text)

/-! ## Strings -/

/-- The character that a one-letter escape stands for: without a meaning of its own a letter stands
for itself. -/
def escapeOf (c : Char) : Char :=
  if c = 'n' then '\n'
  else if c = 't' then '\t'
  else if c = 'r' then '\r'
  else if c = 'b' then '\x08'
  else if c = 'f' then '\x0c'
  else c

/-- The content of a string, or what is wrong with it; and the text that follows. -/
abbrev StringRun := Except Malformed (List Char) × List Char

/-- Adds a character in front of the content. -/
def StringRun.prepend (c : Char) (run : StringRun) : StringRun := (run.1.map (c :: ·), run.2)

/-- How many of the next four characters are hexadecimal digits, up to the first that is not. -/
def hexRun (text : List Char) : Nat :=
  ((text.take 4).takeWhile fun c => (Text.hexDigit? c).isSome).length

/-- The rest of a string after its opening quote, up to and including the closing one.  Reading goes
on at the last character of a wrong escape of a code point. -/
def stringRun (quote : Char) : List Char → StringRun
  | [] => (.error .unterminated, [])
  | ['\\'] => (.error .unterminated, [])
  | '\\' :: 'u' :: text =>
    match text with
    | a :: b :: c :: d :: rest =>
      match (Text.hex4? a b c d).bind Text.charOfCode? with
      | some char => (stringRun quote rest).prepend char
      | none => (.error .escape, ('u' :: text).drop (hexRun text))
    | _ => (.error .escape, ('u' :: text).drop (hexRun text))
  | '\\' :: c :: rest => (stringRun quote rest).prepend (escapeOf c)
  | c :: rest => if c = quote then (.ok [], rest) else (stringRun quote rest).prepend c

/-- The token of a string. -/
def stringToken : Except Malformed (List Char) → Token
  | .ok content => .string (String.ofList content)
  | .error problem => .invalid problem

/-! ## Tokens -/

/-- Single and double quotes both enclose strings. -/
def isQuote (c : Char) : Bool := c = '\x27' || c = '\x22'

/-- The token that begins with a character, given the text from that character on, and the text
behind it. -/
def tokenAt (c : Char) (rest : List Char) : Token × List Char :=
  match Mark.ofChar? c with
  | some mark => (.mark mark, rest)
  | none =>
    if isQuote c then
      let run := stringRun c rest
      (stringToken run.1, run.2)
    else if beginsWord c then
      (wordToken (c :: rest.takeWhile continuesWord), rest.dropWhile continuesWord)
    else if c.isDigit then
      let run := numberRun (c :: rest)
      (.number (String.ofList run.1), run.2)
    else (.invalid (.character c), rest)

/-- The first token of a text and the text behind it; nothing at the end. -/
def next? (text : List Char) : Option (Token × List Char) :=
  match text.dropWhile Text.isBlank with
  | [] => none
  | c :: rest => some (tokenAt c rest)

/-- The tokens of a text, `fuel` of them at most, and `eof`. -/
def tokensWithin : Nat → List Char → List Token
  | 0, _ => [.eof]
  | fuel + 1, text =>
    match next? text with
    | none => [.eof]
    | some (token, rest) => token :: tokensWithin fuel rest

end Lexer

/-- The tokens of a text, and `eof`. -/
def tokenize (text : String) : List Token := Lexer.tokensWithin text.toList.length text.toList

end Latent

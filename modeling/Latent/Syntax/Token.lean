import Latent.Text.Literal

/-!
# Tokens of the call syntax

`shown` is the form of a token in messages: the name of its class and, in parentheses, its text.
-/

namespace Latent

/-- A punctuation mark. -/
inductive Mark where
  | leftParen
  | rightParen
  | leftBracket
  | rightBracket
  | leftBrace
  | rightBrace
  | comma
  | colon
  | minus
  deriving DecidableEq, Repr

namespace Mark

/-- All marks. -/
def all : List Mark :=
  [leftParen, rightParen, leftBracket, rightBracket, leftBrace, rightBrace, comma, colon, minus]

/-- The character of a mark. -/
def char : Mark → Char
  | leftParen => '('
  | rightParen => ')'
  | leftBracket => '['
  | rightBracket => ']'
  | leftBrace => '\x7b'
  | rightBrace => '\x7d'
  | comma => ','
  | colon => ':'
  | minus => '-'

/-- The name of a mark in messages. -/
def name : Mark → String
  | leftParen => "LeftParen"
  | rightParen => "RightParen"
  | leftBracket => "LeftBracket"
  | rightBracket => "RightBracket"
  | leftBrace => "LeftBrace"
  | rightBrace => "RightBrace"
  | comma => "Comma"
  | colon => "Colon"
  | minus => "Minus"

/-- The mark written as a character. -/
def ofChar? (c : Char) : Option Mark := all.find? fun mark => mark.char = c

end Mark

/-- What makes a text no token. -/
inductive Malformed where
  | character (c : Char)
  | escape
  | unterminated
  deriving DecidableEq, Repr

/-- What is said of a text that is no token. -/
def Malformed.message : Malformed → String
  | character c => "Unexpected character '" ++ String.ofList [c] ++ "'"
  | escape => "Invalid unicode escape"
  | unterminated => "Unterminated string literal"

/-- A token of the call syntax. -/
inductive Token where
  | identifier (name : String)
  | number (text : String)
  | string (s : String)
  | truth (b : Bool)
  | null
  | mark (m : Mark)
  | invalid (problem : Malformed)
  | eof
  deriving DecidableEq, Repr

namespace Token

/-- A keyword in either of its spellings. -/
def ofKeyword? (word : String) : Option Token :=
  if word = "True" ∨ word = "true" then some (truth true)
  else if word = "False" ∨ word = "false" then some (truth false)
  else if word = "None" ∨ word = "null" then some null
  else none

/-- The name of a class of tokens with a text in parentheses. -/
def named (name text : String) : String :=
  name ++ "(" ++ String.ofList (Text.literal text.toList) ++ ")"

/-- A token in a message. -/
def shown : Token → String
  | identifier name => named "Identifier" name
  | number text => named "Number" text
  | string s => named "String" s
  | truth true => "True"
  | truth false => "False"
  | null => "Null"
  | mark m => m.name
  | invalid problem => named "Invalid" problem.message
  | eof => "Eof"

end Token

end Latent

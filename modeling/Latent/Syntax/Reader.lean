import Latent.Node.Build
import Latent.Numeral.Reading
import Latent.Syntax.Lexer

/-!
# Reading the call syntax

A value is a literal, a list, a map or a call of an operator, nested at most `maxLevels` deep.  Items
have commas between them, and one more may follow the last.  The arguments of a call must make a
node.
-/

namespace Latent

/-- Why a text is no value. -/
inductive ReadError where
  | tooDeep
  | malformed (problem : Malformed)
  | expectedValue (found : Token)
  | expectedNumber (found : Token)
  | expectedKey (found : Token)
  | expectedMark (mark : Mark) (found : Token)
  | unknownOperator (name : String)
  | badNumber (text : String)
  | noNode (op : Operator) (cause : BuildError)
  | trailing (found : Token)
  deriving DecidableEq, Repr

/-- So many levels of values inside each other are read. -/
def maxLevels : Nat := 128

namespace ReadError

/-- What went wrong, in short. -/
def headline : ReadError → String
  | tooDeep => "Expression nested deeper than " ++ toString maxLevels ++ " levels"
  | malformed problem => problem.message
  | expectedValue found => "Expected a value, found " ++ found.shown
  | expectedNumber found => "Expected number after '-', found " ++ found.shown
  | expectedKey found => "Expected a mapping key, found " ++ found.shown
  | expectedMark mark found => "Expected " ++ mark.name ++ ", found " ++ found.shown
  | unknownOperator name => "Unknown expression '" ++ name ++ "'"
  | badNumber text => "Invalid number '" ++ text ++ "'"
  | noNode op _ => "Invalid " ++ op.name ++ " expression"
  | trailing found => "Unexpected trailing input at " ++ found.shown

/-- The reason behind it, when there is one to tell. -/
def reason? : ReadError → Option String
  | badNumber _ => some "invalid float literal"
  | noNode _ cause => some cause.message
  | _ => none

/-- What is said of a text that is not read. -/
def message (e : ReadError) : String :=
  match e.reason? with
  | some reason => e.headline ++ ": " ++ reason
  | none => e.headline

end ReadError

namespace Reader

/-- A reader of `α` from the start of a list of tokens. -/
abbrev Reads (α : Type) := List Token → Except ReadError (α × List Token)

/-- The next token; `eof` goes on for ever. -/
def current (tokens : List Token) : Token := tokens.head?.getD .eof

/-- A numeral without a point or exponent. -/
def isPlainNumeral (text : List Char) : Bool :=
  text.all fun c => c ≠ '.' && c ≠ 'e' && c ≠ 'E'

/-- The value of a numeral: whole when it has neither point nor exponent and fits 64 bits, the
nearest binary64 number otherwise. -/
def numeral (text : List Char) : Except ReadError Value :=
  let whole := if isPlainNumeral text then (Scientific.intOfText? text).bind int64? else none
  match whole with
  | some i => .ok (.integer i)
  | none =>
    match Binary64.ofText? text with
    | some x => .ok (.float x)
    | none => .error (.badNumber (String.ofList text))

/-- The tokens behind a mark. -/
def expect (mark : Mark) (tokens : List Token) : Except ReadError (List Token) :=
  if current tokens = .mark mark then .ok tokens.tail
  else .error (.expectedMark mark (current tokens))

/-- Items with commas between them, up to and including `close`.  Each item takes at least one token,
so the number of tokens bounds the number of items. -/
def itemsUntil {α : Type} (close : Mark) (item : Reads α) : Nat → Reads (List α)
  | 0, tokens => .error (.expectedMark close (current tokens))
  | fuel + 1, tokens =>
    if current tokens = .mark close then .ok ([], tokens.tail)
    else do
      let (first, tokens) ← item tokens
      if current tokens = .mark .comma then do
        let (rest, tokens) ← itemsUntil close item fuel tokens.tail
        return (first :: rest, tokens)
      else do
        let tokens ← expect close tokens
        return ([first], tokens)

/-- All items up to and including `close`. -/
def listUntil {α : Type} (close : Mark) (item : Reads α) : Reads (List α) := fun tokens =>
  itemsUntil close item (tokens.length + 1) tokens

/-- A key, a colon and a value; a numeral is a key by its text. -/
def entry (value : Reads Value) : Reads (String × Value) := fun tokens => do
  let key ← match current tokens with
    | .string key => .ok key
    | .number key => .ok key
    | found => .error (.expectedKey found)
  let tokens ← expect .colon tokens.tail
  let (v, tokens) ← value tokens
  return ((key, v), tokens)

/-- A call of the operator with the given name. -/
def call (value : Reads Value) (name : String) : Reads Value := fun tokens => do
  match Operator.ofName? name with
  | none => throw (.unknownOperator name)
  | some op =>
    let tokens ← expect .leftParen tokens
    let (args, tokens) ← listUntil .rightParen value tokens
    let node ← (Node.ofArguments op args).mapError (.noNode op)
    return (node, tokens)

/-- A numeral behind a minus sign. -/
def negative : Reads Value
  | .number text :: rest => do return (← numeral ('-' :: text.toList), rest)
  | tokens => .error (.expectedNumber (current tokens))

/-- A value with at most `levels` levels. -/
def value : Nat → Reads Value
  | 0, _ => .error .tooDeep
  | levels + 1, tokens =>
    match current tokens with
    | .truth b => .ok (.boolean b, tokens.tail)
    | .null => .ok (.null, tokens.tail)
    | .number text => do return (← numeral text.toList, tokens.tail)
    | .string s => .ok (.string s, tokens.tail)
    | .mark .minus => negative tokens.tail
    | .mark .leftBracket => do
      let (items, rest) ← listUntil .rightBracket (value levels) tokens.tail
      return (.list items, rest)
    | .mark .leftBrace => do
      let (pairs, rest) ← listUntil .rightBrace (entry (value levels)) tokens.tail
      return (.map (Entries.ofPairs pairs), rest)
    | .identifier name => call (value levels) name tokens.tail
    | .invalid problem => .error (.malformed problem)
    | found => .error (.expectedValue found)

/-- The value that a list of tokens spells. -/
def ofTokens (tokens : List Token) : Except ReadError Value := do
  let (v, rest) ← value maxLevels tokens
  if current rest = .eof then return v else throw (.trailing (current rest))

end Reader

/-- The value that a text spells in the call syntax. -/
def Value.read (text : String) : Except ReadError Value := Reader.ofTokens (tokenize text)

end Latent

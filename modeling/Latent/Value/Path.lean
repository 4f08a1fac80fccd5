import Latent.Value.Basic

/-!
# Paths

A path names a variable, or a part of one: its segments, with dots between them, are keys of maps and
positions in lists.  A key that contains dots wins over a walk into the map.
-/

namespace Latent

namespace Path

/-- The segments of a path: the texts between its dots. -/
def segments (path : String) : List (List Char) := path.toList.splitOn '.'

/-- The path with the given segments. -/
def join (segments : List (List Char)) : String := String.ofList (['.'].intercalate segments)

/-- The item at the position that a segment spells, without a sign or zeros in front. -/
def itemAt? (items : List Value) (segment : List Char) : Option Value :=
  match Scientific.natOfText? segment with
  | some n => if Nat.toDigits 10 n = segment then items[n]? else none
  | none => none

/-- What a path reaches from a value. -/
def reach? : List (List Char) → Value → Option Value
  | segment :: rest, .map entries =>
    match Entries.find? (join (segment :: rest)) entries with
    | some v => some v
    | none =>
      if rest = [] then none
      else (Entries.find? (String.ofList segment) entries).bind (reach? rest)
  | segment :: rest, .list items =>
    if rest = [] then itemAt? items segment else (itemAt? items segment).bind (reach? rest)
  | _, _ => none

/-- What a path names among the given variables. -/
def resolve? (path : String) (bindings : Entries Value) : Option Value :=
  reach? (segments path) (.map bindings)

end Path

end Latent

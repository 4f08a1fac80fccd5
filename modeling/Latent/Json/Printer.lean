import Latent.Json.Basic
import Latent.Binary64.Shortest
import Latent.Text.Quoted

/-!
# JSON text

Compact text: no blanks.  Whole numbers are written in full; any other number has the shortest digits
that read back, in their places from `1e-5` up to below `1e16`, with an exponent elsewhere.
-/

namespace Latent

namespace Json

/-- The least leading exponent of a decimal that is written without an exponent. -/
def leastPlainExponent : Int := -5

/-- The greatest leading exponent of a decimal that is written without an exponent. -/
def greatestPlainExponent : Int := 15

/-- The text of a positive decimal: a decimal without a fraction gets one. -/
def decimalText (s : Scientific) : List Char :=
  if leastPlainExponent ≤ s.leadingExponent ∧ s.leadingExponent ≤ greatestPlainExponent then
    s.positional ++ (if 0 ≤ s.exponent then ['.', '0'] else [])
  else s.normalised 'e'

/-- The text of a binary64 number; a tie between two shortest decimals goes to the even digit. -/
def binary64Text : Binary64 → List Char
  | .finite negative units _ =>
    (if negative then ['-'] else []) ++
      if units = 0 then ['0', '.', '0'] else decimalText (Binary64.shortest .even units)
  | _ => ['n', 'u', 'l', 'l']

/-- The text of a number. -/
def Number.text : Number → List Char
  | .whole i _ => intText i
  | .float x _ => binary64Text x

mutual

/-- The compact text of a tree. -/
def text : Json → List Char
  | null => ['n', 'u', 'l', 'l']
  | boolean true => ['t', 'r', 'u', 'e']
  | boolean false => ['f', 'a', 'l', 's', 'e']
  | number n => n.text
  | string s => Text.quoted s.toList
  | array items => '[' :: ([','].intercalate (itemTexts items) ++ [']'])
  | object entries => '\x7b' :: ([','].intercalate (entryTexts entries) ++ ['\x7d'])

/-- The texts of items. -/
def itemTexts : List Json → List (List Char)
  | [] => []
  | item :: rest => text item :: itemTexts rest

/-- The texts of entries: a quoted key, a colon and the tree. -/
def entryTexts : List (String × Json) → List (List Char)
  | [] => []
  | (key, value) :: rest => (Text.quoted key.toList ++ ':' :: text value) :: entryTexts rest

end

/-- Items are written one by one. -/
theorem itemTexts_eq_map (items : List Json) : itemTexts items = items.map text := by
  induction items with
  | nil => rfl
  | cons item rest ih => rw [itemTexts, ih, List.map_cons]

/-- Entries are written one by one, the key quoted. -/
theorem entryTexts_eq_map (entries : List (String × Json)) :
    entryTexts entries
      = entries.map fun entry => Text.quoted entry.1.toList ++ ':' :: text entry.2 := by
  induction entries with
  | nil => rfl
  | cons entry rest ih => rw [entryTexts, ih, List.map_cons]

/-- An array is written as the texts of its items in brackets. -/
@[simp] theorem text_array (items : List Json) :
    (array items).text = '[' :: ([','].intercalate (items.map text) ++ [']']) := by
  rw [text, itemTexts_eq_map]

/-- An object is written as its entries in braces. -/
@[simp] theorem text_object (entries : List (String × Json)) :
    (object entries).text = '\x7b' :: ([','].intercalate (entries.map fun entry =>
      Text.quoted entry.1.toList ++ ':' :: text entry.2) ++ ['\x7d']) := by
  rw [text, entryTexts_eq_map]

/-- The compact text of a tree, as a string. -/
def print (tree : Json) : String := String.ofList tree.text

end Json

end Latent

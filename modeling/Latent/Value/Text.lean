import Latent.Binary64.Shortest
import Latent.Text.Quoted
import Latent.Value.Basic

/-!
# Canonical text

A node is written as a call, with its arguments in order; scalars as in JSON; lists as `[a, b]` and
maps as `\x7b"key": value\x7d` in the order of their entries.  Dates and times are quoted ISO texts, a
duration is a call of its own.  A binary64 number is written without an exponent.
-/

namespace Latent

/-- The canonical text of a binary64 number: a whole number in full, any other with the shortest
digits that read back, a tie away from zero; `null` when it is not finite. -/
def Binary64.canonicalText : Binary64 → List Char
  | .finite negative units fits =>
    (if negative then ['-'] else []) ++
      match (Binary64.finite negative units fits).toInt? with
      | some i => Nat.toDigits 10 i.natAbs
      | none => (Binary64.shortest .away units).positional
  | _ => ['n', 'u', 'l', 'l']

/-- Texts with a comma and a blank between each two of them. -/
def commaSeparated (texts : List (List Char)) : List Char := [',', ' '].intercalate texts

/-- A duration as a call with its days, seconds and microseconds. -/
def Duration.callText (d : Duration) : List Char :=
  let c := d.components
  Operator.timeDelta.name.toList ++ '(' ::
    (commaSeparated [intText c.days, intText c.seconds, intText c.micros] ++ [')'])

namespace Value

mutual

/-- The canonical text of a value. -/
def text : Value → List Char
  | null => ['n', 'u', 'l', 'l']
  | boolean true => ['t', 'r', 'u', 'e']
  | boolean false => ['f', 'a', 'l', 's', 'e']
  | integer i => intText i.toInt
  | float x => x.canonicalText
  | decimal d => d.text
  | string s => Text.quoted s.toList
  | list items => '[' :: (commaSeparated (itemTexts items) ++ [']'])
  | map entries => '\x7b' :: (commaSeparated (entryTexts entries) ++ ['\x7d'])
  | date d => Text.quoted d.text
  | dateTime t => Text.quoted t.text
  | time t => Text.quoted t.text
  | duration d => d.callText
  | node op operands =>
    let args := if op.isVariadic then spreadTexts operands else op.toArguments (itemTexts operands)
    op.name.toList ++ '(' :: (commaSeparated args ++ [')'])

/-- The texts of items. -/
def itemTexts : List Value → List (List Char)
  | [] => []
  | item :: rest => text item :: itemTexts rest

/-- The texts of entries: a quoted key, a colon and the value. -/
def entryTexts : List (String × Value) → List (List Char)
  | [] => []
  | (key, value) :: rest => (Text.quoted key.toList ++ ':' :: ' ' :: text value) :: entryTexts rest

/-- The texts of the items of lists, one after another. -/
def spreadTexts : List Value → List (List Char)
  | [] => []
  | list items :: rest => itemTexts items ++ spreadTexts rest
  | v :: rest => text v :: spreadTexts rest

end

/-- Items are written one by one. -/
theorem itemTexts_eq_map (items : List Value) : itemTexts items = items.map text := by
  induction items with
  | nil => rfl
  | cons item rest ih => rw [itemTexts, ih, List.map_cons]

/-- Entries are written one by one, the key quoted. -/
theorem entryTexts_eq_map (entries : List (String × Value)) :
    entryTexts entries
      = entries.map fun entry => Text.quoted entry.1.toList ++ ':' :: ' ' :: text entry.2 := by
  induction entries with
  | nil => rfl
  | cons entry rest ih => rw [entryTexts, ih, List.map_cons]

/-- Spread items are written one by one. -/
theorem spreadTexts_eq_map (items : List Value) : spreadTexts items = (spread items).map text := by
  fun_induction spread items with
  | case1 => rfl
  | case2 items rest ih => rw [spreadTexts, ih, itemTexts_eq_map, List.map_append]
  | case3 v rest ne ih => rw [spreadTexts, ih, List.map_cons]; exact ne

/-- A list is written as the texts of its items in brackets. -/
@[simp] theorem text_list (items : List Value) :
    (list items).text = '[' :: (commaSeparated (items.map text) ++ [']']) := by
  rw [text, itemTexts_eq_map]

/-- A map is written as its entries in braces. -/
@[simp] theorem text_map (entries : List (String × Value)) :
    (map entries).text = '\x7b' :: (commaSeparated (entries.map fun entry =>
      Text.quoted entry.1.toList ++ ':' :: ' ' :: text entry.2) ++ ['\x7d']) := by
  rw [text, entryTexts_eq_map]

/-- A node is written as its name and the texts of its arguments. -/
@[simp] theorem text_node (op : Operator) (operands : List Value) :
    text (node op operands)
      = op.name.toList ++ '(' ::
          (commaSeparated ((arguments op operands).map text) ++ [')']) := by
  rw [text, arguments]
  split
  · rw [spreadTexts_eq_map]
  · rw [itemTexts_eq_map, Operator.toArguments_map]

/-- The canonical text of a value, as a string. -/
def print (v : Value) : String := String.ofList v.text

end Value

end Latent

import Latent.Text.CodePoints

/-!
# Blanks

The `White_Space` property, and texts without the blanks at their ends.
-/

namespace Latent.Text

/-- Where the `White_Space` property begins and ends. -/
def blankChanges : List Nat :=
  [0x9, 0xe, 0x20, 0x21, 0x85, 0x86, 0xa0, 0xa1, 0x1680, 0x1681, 0x2000, 0x200b, 0x2028, 0x202a,
   0x202f, 0x2030, 0x205f, 0x2060, 0x3000, 0x3001]

/-- White space: the character has the `White_Space` property. -/
def isBlank (c : Char) : Bool := memberOf blankChanges c

/-- The text without the blanks it begins with. -/
def trimLeft (text : List Char) : List Char := text.dropWhile isBlank

/-- The text without the blanks at either end. -/
def trim (text : List Char) : List Char := (trimLeft (trimLeft text).reverse).reverse

end Latent.Text

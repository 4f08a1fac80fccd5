import Latent.Text.Printable

/-!
# Text in messages

Messages show a text as a double-quoted literal in which every unprintable character is replaced by
its code point in hexadecimal.
-/

namespace Latent.Text

/-- A character of a literal. -/
def shown (c : Char) : List Char :=
  if c = '"' then ['\\', '"']
  else if c = '\\' then ['\\', '\\']
  else if c = '\n' then ['\\', 'n']
  else if c = '\r' then ['\\', 'r']
  else if c = '\t' then ['\\', 't']
  else if c = '\x00' then ['\\', '0']
  else if isPrintable c then [c]
  else ['\\', 'u', '\x7b'] ++ Nat.toDigits 16 c.toNat ++ ['\x7d']

/-- A text as a literal. -/
def literal (text : List Char) : List Char := '"' :: (text.flatMap shown ++ ['"'])

end Latent.Text

import RecordStore.Text.Printable

/-!
# Quoting a text in a message

`quote` writes a text between double quotes so that every character can be recognised: the quote
and the backslash get a backslash, four control characters have a letter of their own, and every
other character that is not printable, or that is drawn on its neighbour, is written as its code
point in braces. Single quotes stand as they are.
-/

namespace RecordStore.Text

/-- The lower-case hexadecimal digits of a number, without leading zeros. -/
def hex (n : Nat) : List Char := Nat.toDigits 16 n

/-- How one character is written between double quotes. -/
def escape (c : Char) : List Char :=
  if c = '\x00' then ['\\', '0']
  else if c = '\t' then ['\\', 't']
  else if c = '\r' then ['\\', 'r']
  else if c = '\n' then ['\\', 'n']
  else if c = '\\' then ['\\', '\\']
  else if c = '"' then ['\\', '"']
  else if isExtending c || !isPrintable c then ['\\', 'u', '\x7b'] ++ hex c.toNat ++ ['\x7d']
  else [c]

/-- The text between double quotes, with every character that needs it escaped. -/
def quote (s : String) : String := String.ofList ('"' :: s.toList.flatMap escape ++ ['"'])

end RecordStore.Text

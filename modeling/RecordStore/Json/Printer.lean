import RecordStore.Json.Basic

/-!
# Writing JSON

- `Json.compact`: a tree without any space;
- `Json.pretty`: a tree with each element and member on a line of its own, indented by two spaces
  for each level; an empty array or object stays on its line.

`escaped` writes a string: quotes, backslashes and control characters are escaped, every other
character stands for itself.
-/

namespace RecordStore.Json

/-- A hexadecimal digit in lower case. -/
def hexDigit (n : Nat) : Char := Nat.digitChar n

/-- How one character is written in a string. -/
def escapedChar (c : Char) : List Char :=
  if c = '"' then ['\\', '"']
  else if c = '\\' then ['\\', '\\']
  else if c = '\n' then ['\\', 'n']
  else if c = '\r' then ['\\', 'r']
  else if c = '\t' then ['\\', 't']
  else if c = '\x08' then ['\\', 'b']
  else if c = '\x0c' then ['\\', 'f']
  else if c.toNat < 0x20 then
    ['\\', 'u', '0', '0', hexDigit (c.toNat / 16), hexDigit (c.toNat % 16)]
  else [c]

/-- A string between quotes. -/
def escaped (s : String) : List Char := '"' :: s.toList.flatMap escapedChar ++ ['"']

/-- A string that names half of a surrogate pair, and so has no value. -/
def unpaired : List Char := "\"\\ud800\"".toList

mutual

/-- The tree without any space. -/
def compact : Json → List Char
  | .null => "null".toList
  | .bool true => "true".toList
  | .bool false => "false".toList
  | .number n => n.render
  | .string text => escaped text
  | .array [] => ['[', ']']
  | .array (first :: rest) => '[' :: compact first ++ compactElements rest
  | .object [] => ['{', '}']
  | .object ((key, content) :: rest) =>
    '{' :: escaped key ++ ':' :: compact content ++ compactMembers rest
  | .unreadable => unpaired

/-- The elements after the first one, and the bracket. -/
def compactElements : List Json → List Char
  | [] => [']']
  | element :: rest => ',' :: compact element ++ compactElements rest

/-- The members after the first one, and the brace. -/
def compactMembers : List (String × Json) → List Char
  | [] => ['}']
  | (key, content) :: rest =>
    ',' :: escaped key ++ ':' :: compact content ++ compactMembers rest

end

/-- A new line at a nesting level. -/
def newLine (level : Nat) : List Char := '\n' :: List.replicate (2 * level) ' '

mutual

/-- The tree on several lines, from a nesting level on. -/
def pretty (level : Nat) : Json → List Char
  | .array (first :: rest) =>
    '[' :: newLine (level + 1) ++ pretty (level + 1) first ++ prettyElements level rest
  | .object ((key, content) :: rest) =>
    '{' :: newLine (level + 1) ++ escaped key ++ [':', ' '] ++ pretty (level + 1) content ++
      prettyMembers level rest
  | .null => compact .null
  | .bool b => compact (.bool b)
  | .number n => compact (.number n)
  | .string text => compact (.string text)
  | .array [] => compact (.array [])
  | .object [] => compact (.object [])
  | .unreadable => compact .unreadable

/-- The elements after the first one, each on its line, and the bracket. -/
def prettyElements (level : Nat) : List Json → List Char
  | [] => newLine level ++ [']']
  | element :: rest =>
    ',' :: newLine (level + 1) ++ pretty (level + 1) element ++ prettyElements level rest

/-- The members after the first one, each on its line, and the brace. -/
def prettyMembers (level : Nat) : List (String × Json) → List Char
  | [] => newLine level ++ ['}']
  | (key, content) :: rest =>
    ',' :: newLine (level + 1) ++ escaped key ++ [':', ' '] ++ pretty (level + 1) content ++
      prettyMembers level rest

end

end RecordStore.Json

import RecordStore.Value
import RecordStore.Text.Split

/-!
# Literals

A literal is a value as it is spelled in a query: a text, and whether it stood between quotes. The
spelling alone decides its type (`Literal.classify`), and a literal becomes a value of a column
only if that is the column's type (`Literal.coerce?`):

- a quoted literal is always a string;
- an optional `-` and digits are an integer;
- an optional `-` and digits with one point among or around them are a decimal;
- anything else is a string.
-/

namespace RecordStore

/-- A value as it is spelled in a query. -/
structure Literal where
  text : String
  quoted : Bool
  deriving DecidableEq, Repr

namespace Literal

/-- A literal without quotes. -/
def bare (text : String) : Literal := { text, quoted := false }

/-- A literal between quotes. -/
def ofQuoted (text : String) : Literal := { text, quoted := true }

/-- Whether the literal is a bare `*`, which stands for the value that is already there. -/
def isWildcard (l : Literal) : Bool := !l.quoted && l.text == "*"

/-- The text without the `-` it may start with. -/
def unsigned : List Char → List Char
  | '-' :: cs => cs
  | cs => cs

/-- An optional `-` and one or more digits. -/
def isInteger (cs : List Char) : Bool := Numeral.isNumeral (unsigned cs)

/-- An optional `-` and digits with exactly one point, at least one digit. -/
def isDecimal (cs : List Char) : Bool :=
  let body := unsigned cs
  body.all (fun c => c.isDigit || c == '.') && body.count '.' == 1 && body.any Char.isDigit

/-- The type that the spelling of the literal has. -/
def classify (l : Literal) : StorageType :=
  if l.quoted then .string
  else if isInteger l.text.toList then .integer
  else if isDecimal l.text.toList then .decimal
  else .string

/-- The value of the literal in a column of the given type, if its spelling has that type and the
value is in range. -/
def coerce? (l : Literal) (type : StorageType) : Option Value :=
  if l.classify ≠ type then none
  else
    match type with
    | .integer => (Numeral.readInt64? l.text.toList).map .int
    | .decimal =>
      (Numeral.readDecimal? l.text.toList).bind fun x => if x.isFinite then some (.dec x) else none
    | .string => some (.str l.text)

/-- The literal as it is written in a query. A quoted text with a single quote in it is put between
double quotes. -/
def render (l : Literal) : String :=
  if !l.quoted then l.text
  else if l.text.toList.contains '\'' then "\"" ++ l.text ++ "\""
  else "'" ++ l.text ++ "'"

end Literal

end RecordStore

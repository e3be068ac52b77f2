import RecordStore.Numeral.Integer
import RecordStore.Record.Corruption

/-!
# The header of a table file

A table file starts with the name of the table and its columns between square brackets:
`[People,2:Name,0:Age]`. A column is written as the code of its type and its name. Names contain
none of the characters of this format, so it needs no escapes.

- `Header.encode`: the text of a header;
- `Header.decode`: the header at the start of a text, and its length in bytes.
-/

namespace RecordStore

/-- The name and the columns of a table, and how many bytes their text takes in its file. -/
structure Header where
  name : String
  schema : Schema
  length : Nat
  deriving DecidableEq, Repr

namespace Header

/-- A column in a header, after its comma. -/
def encodeColumn (c : Column) : List Char :=
  ',' :: Numeral.writeNat c.type.code ++ ':' :: c.name.toList

/-- The header of a table with this name and schema. -/
def encodeChars (name : String) (schema : Schema) : List Char :=
  '[' :: name.toList ++ schema.columns.flatMap encodeColumn ++ [']']

/-- The header of a table with this name and schema. -/
def encode (name : String) (schema : Schema) : String := String.ofList (encodeChars name schema)

/-- The type with this code, which is written as a number below 256. -/
def decodeCode? (code : List Char) : Option StorageType :=
  (Numeral.readByte? code).bind StorageType.ofCode?

/-- A column from the text between two commas. -/
def decodeColumn (part : List Char) : Except FormatFault Column :=
  match Text.cut? ':' part with
  | none => .error (.badColumn (String.ofList part))
  | some (code, name) =>
    match decodeCode? code with
    | none => .error (.badCode (String.ofList code))
    | some type => .ok { name := String.ofList name, type }

/-- The name and the columns from the text between the brackets. A name that is refused is reported
where it starts; any other fault is reported at the start of the file. -/
def decodeBody (body : List Char) : Except Corruption (String × Schema) :=
  match Text.splitOn ',' body with
  | [] => .error ⟨1, .badName .empty⟩
  | first :: parts =>
    let name := String.ofList first
    match Name.check name with
    | .error fault => .error ⟨1, .badName fault⟩
    | .ok () =>
      match parts.mapM decodeColumn with
      | .error fault => .error ⟨0, fault⟩
      | .ok columns =>
        let schema : Schema := { columns }
        match schema.check with
        | .error fault => .error ⟨0, .badSchema fault⟩
        | .ok () => .ok (name, schema)

/-- The header at the start of a text, which ends at the first closing bracket. -/
def decodeChars : List Char → Except Corruption Header
  | '[' :: rest =>
    match Text.cut? ']' rest with
    | none => .error ⟨0, .unterminatedHeader⟩
    | some (body, _) =>
      (decodeBody body).map fun (name, schema) =>
        { name, schema, length := Text.utf8Length body + 2 }
  | _ => .error ⟨0, .missingHeader⟩

/-- The header at the start of a text. -/
def decode (text : String) : Except Corruption Header := decodeChars text.toList

end Header

end RecordStore

import RecordStore.Entry
import RecordStore.Record.Corruption

/-!
# Records of a table file

An entry is stored as `{id;fields}`, the fields separated by commas, each a tag, a colon and the
text of a value: `{a1b2c3;S:Bob,I:30}`. In strings a backslash goes before `\`, `{`, `}` and `,`.
A backslash before any other character stands for itself.

- `escape`, `unescape`: strings in a record (`unescape_escape`);
- `Entry.encode`: the record of an entry;
- `splitFields`: the fields of a record's body;
- `RawRecord`: a record found in a file, and `RawRecord.decode`, the entry it holds.
-/

namespace RecordStore

/-- The characters that a backslash goes before. -/
def isEscapable (c : Char) : Bool := c == '\\' || c == '{' || c == '}' || c == ','

/-- A string as it is written in a record. -/
def escape : List Char → List Char
  | [] => []
  | c :: cs => if isEscapable c then '\\' :: c :: escape cs else c :: escape cs

/-- The string that a text in a record stands for. -/
def unescape : List Char → List Char
  | [] => []
  | [c] => [c]
  | c :: d :: cs =>
    if c = '\\' && isEscapable d then d :: unescape cs else c :: unescape (d :: cs)

/-- A character other than a backslash stands for itself. -/
theorem unescape_cons {c : Char} (h : c ≠ '\\') (cs : List Char) :
    unescape (c :: cs) = c :: unescape cs := by
  cases cs <;> simp [unescape, h]

/-- Every string is read back from its escaped form. -/
theorem unescape_escape (cs : List Char) : unescape (escape cs) = cs := by
  induction cs with
  | nil => rfl
  | cons c cs ih =>
    unfold escape
    split
    · next h => simp [unescape, h, ih]
    · next h =>
      have hc : c ≠ '\\' := by rintro rfl; exact h rfl
      rw [unescape_cons hc, ih]

/-! ## Writing -/

/-- The text of a value in a record, without its tag. -/
def Value.encodeContent : Value → List Char
  | .int n => Numeral.writeInt64 n
  | .dec x => Numeral.writeDecimal x
  | .str s => escape s.toList

/-- A value as a field of a record. -/
def Value.encode (v : Value) : List Char := v.storageType.tag :: ':' :: v.encodeContent

/-- The record of an entry. Column names are not stored. -/
def Entry.encodeChars (e : Entry) : List Char :=
  '{' :: e.id.toList ++ ';' :: Text.join [','] (e.values.map Value.encode) ++ ['}']

/-- The record of an entry. -/
def Entry.encode (e : Entry) : String := String.ofList e.encodeChars

/-! ## Reading -/

/-- Cuts a text at each comma that has no backslash before it. There is always a first part. -/
def splitUnescaped : List Char → List (List Char)
  | [] => [[]]
  | [c] => if c = ',' then [[], []] else [[c]]
  | c :: d :: cs =>
    if c = ',' then [] :: splitUnescaped (d :: cs)
    else if c = '\\' && isEscapable d then
      Text.extendFirst c (Text.extendFirst d (splitUnescaped cs))
    else Text.extendFirst c (splitUnescaped (d :: cs))

/-- The fields of the body of a record. An empty body has none. -/
def splitFields (body : List Char) : List (List Char) :=
  if body.isEmpty then [] else splitUnescaped body

/-- The value that a text stands for in a column of this type. -/
def Value.decodeContent? (type : StorageType) (content : List Char) : Option Value :=
  match type with
  | .integer => (Numeral.readInt64? content).map .int
  | .decimal => (Numeral.readDecimal? content).map .dec
  | .string => some (.str (String.ofList (unescape content)))

/-- The value of a field, whose tag must be that of the column. -/
def Value.decode? (type : StorageType) : List Char → Option Value
  | tag :: ':' :: content => if tag = type.tag then decodeContent? type content else none
  | _ => none

/-- The field of a column, with the column's name. -/
def decodeField (field : List Char) (column : Column) : Except FormatFault (String × Value) :=
  match Value.decode? column.type field with
  | some value => .ok (column.name, value)
  | none => .error (.badValue (String.ofList field) column.name)

/-- A record found in a file: the bytes from `start` up to `stop`, the id and the body. -/
structure RawRecord where
  start : Nat
  stop : Nat
  id : String
  body : String
  deriving DecidableEq, Repr

/-- The entry that a record holds under a schema. Faults are reported where the record starts. -/
def RawRecord.decode (r : RawRecord) (schema : Schema) : Except Corruption Entry :=
  let fields := splitFields r.body.toList
  if fields.length ≠ schema.size then
    .error ⟨r.start, .fieldCount schema.size fields.length⟩
  else
    match (fields.zip schema.columns).mapM fun (field, column) => decodeField field column with
    | .ok data => .ok { id := r.id, data }
    | .error fault => .error ⟨r.start, fault⟩

end RecordStore

import RecordStore.Text.Quoted
import RecordStore.Text.Split

/-!
# Storage types

A column holds integers, decimals or strings. Its type is written in four ways:

- `StorageType.label`: the name in messages;
- `StorageType.code`: a digit in the header of a table file;
- `StorageType.tag`: the letter before a value in a record;
- the names that people write, which `StorageType.ofName` accepts in letters of either case.
-/

namespace RecordStore

/-- The type of the values in a column. -/
inductive StorageType where
  | integer
  | decimal
  | string
  deriving DecidableEq, Repr

namespace StorageType

/-- The name of the type in messages. -/
def label : StorageType → String
  | integer => "INTEGER"
  | decimal => "DECIMAL"
  | string => "STRING"

/-- The number of the type in the header of a table file. -/
def code : StorageType → Nat
  | integer => 0
  | decimal => 1
  | string => 2

/-- The type with this number. -/
def ofCode? : Nat → Option StorageType
  | 0 => some integer
  | 1 => some decimal
  | 2 => some string
  | _ => none

/-- The letter before a value of this type in a record. -/
def tag : StorageType → Char
  | integer => 'I'
  | decimal => 'D'
  | string => 'S'

/-- The type with this letter. -/
def ofTag? : Char → Option StorageType
  | 'I' => some integer
  | 'D' => some decimal
  | 'S' => some string
  | _ => none

/-- Whether values of this type are compared as numbers. -/
def isNumeric : StorageType → Bool
  | integer | decimal => true
  | string => false

/-- The type that a name stands for in capital letters. -/
def ofCapitals? : String → Option StorageType
  | "INTEGER" | "INT" => some integer
  | "DECIMAL" | "DEC" | "FLOAT" => some decimal
  | "STRING" | "STR" | "TEXT" => some string
  | _ => none

/-- The type that a name stands for, in letters of either case, or a message. -/
def ofName (name : String) : Except String StorageType :=
  match ofCapitals? (Text.upper name) with
  | some type => .ok type
  | none => .error ("unknown storage type " ++ Text.quote name)

@[simp] theorem ofCode?_code (t : StorageType) : ofCode? t.code = some t := by cases t <;> rfl

@[simp] theorem ofTag?_tag (t : StorageType) : ofTag? t.tag = some t := by cases t <;> rfl

end StorageType

end RecordStore

import RecordStore.Name
import RecordStore.StorageType

/-!
# Schemas

A schema is the list of a table's columns, each with a name and a type. `Schema.check` accepts a
schema with at least one column, valid names and no name twice, or gives the first fault;
`Schema.find?` finds a column by its name, with its position.
-/

namespace RecordStore

/-- A column of a table. -/
structure Column where
  name : String
  type : StorageType
  deriving DecidableEq, Repr

/-- The columns of a table, in order. -/
structure Schema where
  columns : List Column
  deriving DecidableEq, Repr

/-- Why a schema is refused. -/
inductive SchemaFault where
  | noColumns
  | name (fault : NameFault)
  | duplicate (column : String)
  deriving DecidableEq, Repr

/-- The fault in words. -/
def SchemaFault.message : SchemaFault → String
  | noColumns => "a table needs at least one column"
  | name fault => fault.message
  | duplicate column => "duplicate column " ++ Text.quote column

namespace Schema

/-- The number of columns. -/
def size (s : Schema) : Nat := s.columns.length

/-- The first column with this name, and its position. -/
def find? (s : Schema) (name : String) : Option (Nat × Column) :=
  (s.columns.zipIdx.find? fun (c, _) => c.name == name).map fun (c, i) => (i, c)

/-- Checks columns one after the other, given the names of those before. -/
def checkColumns (earlier : List String) : List Column → Except SchemaFault Unit
  | [] => .ok ()
  | c :: cs =>
    match Name.check c.name with
    | .error fault => .error (.name fault)
    | .ok () =>
      if earlier.contains c.name then .error (.duplicate c.name)
      else checkColumns (earlier ++ [c.name]) cs

/-- Accepts a schema or says what is wrong with it. -/
def check (s : Schema) : Except SchemaFault Unit :=
  if s.columns.isEmpty then .error .noColumns else checkColumns [] s.columns

end Schema

end RecordStore

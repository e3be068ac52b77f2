import RecordStore.Entry
import RecordStore.Error
import RecordStore.Literal

/-!
# Values for a row

A query spells one literal for each column. `coerceRow` turns them into values, with nothing for a
wildcard; `newRow` is the data of a new entry, for which every value must be given; `replaceValues`
puts the values that are given in the place of those that an entry has.
-/

namespace RecordStore.Table

/-- The error for a literal that is no value of its column. -/
def typeMismatch (column : Column) (text : String) : QueryError :=
  .typeMismatch column.name text column.type

/-- The value of a literal in its column, or nothing for a wildcard. -/
def coerceColumn (l : Literal) (column : Column) : Except QueryError (Option Value) :=
  if l.isWildcard then .ok none
  else
    match l.coerce? column.type with
    | some value => .ok (some value)
    | none => .error (typeMismatch column l.text)

/-- One value or wildcard for each column of the schema. -/
def coerceRow (schema : Schema) (values : List Literal) : Except QueryError (List (Option Value)) :=
  if values.length ≠ schema.size then .error (.valueCountMismatch schema.size values.length)
  else (values.zip schema.columns).mapM fun (l, column) => coerceColumn l column

/-- The value of a column in a new entry, which a wildcard does not give. -/
def requireValue (value : Option Value) (column : Column) : Except QueryError (String × Value) :=
  match value with
  | some v => .ok (column.name, v)
  | none => .error (typeMismatch column "*")

/-- The data of a new entry. -/
def newRow (schema : Schema) (values : List Literal) :
    Except QueryError (List (String × Value)) := do
  let row ← coerceRow schema values
  (row.zip schema.columns).mapM fun (value, column) => requireValue value column

/-- The entry with each value replaced for which there is a replacement. The time that an earlier
query took is not kept. -/
def replaceValues (replacements : List (Option Value)) (e : Entry) : Entry :=
  { id := e.id
    data := (e.data.zip replacements).map fun ((column, old), new) => (column, new.getD old) }

end RecordStore.Table

import RecordStore.Config
import RecordStore.Disk
import RecordStore.Record.Header

/-!
# Tables

A `Table` is a handle on one table file: its name and schema as they were when the handle was made,
the path of the file, and whether the table was dropped through this handle. Everything else about a
table is in its file, which each query reads anew.

- `Table.create`: makes the file of a new table and a handle on it;
- `Table.load`: a handle on an existing file.
-/

namespace RecordStore

/-- A handle on a table file. -/
structure Table where
  name : String
  schema : Schema
  path : String
  dropped : Bool := false
  deriving DecidableEq, Repr

namespace Table

/-- Makes the file of a new table and a handle on it. -/
def create (config : StoreConfig) (name : String) (schema : Schema) : Disk Table := do
  Disk.ofExcept ((Name.check name).mapError .ofName)
  Disk.ofExcept (schema.check.mapError .ofSchema)
  Disk.makeFolders config.dataDir
  let path := config.tablePath name
  Disk.change path (·.create path (Header.encode name schema).toUTF8)
  return { name, schema, path }

/-- A handle on an existing table file, with the name and the schema in its header. -/
def load (path : String) : Disk Table := do
  let text ← Disk.readText path
  let header ← Disk.ofExcept ((Header.decode text).mapError (·.error path))
  return { name := header.name, schema := header.schema, path }

end Table

end RecordStore

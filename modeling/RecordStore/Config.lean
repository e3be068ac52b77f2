import RecordStore.FileTree

/-!
# Where tables are kept

A `StoreConfig` names the folder of the table files and their extension. A table's file is named
after the table. `syncWrites` asks for writes to reach the disk before a query answers; it changes
nothing that a query can see.
-/

namespace RecordStore

/-- The folder of the table files, their extension without its dot, and whether writes are
synced. -/
structure StoreConfig where
  dataDir : String := "./data"
  extension : String := "tbl"
  syncWrites : Bool := true
  deriving DecidableEq, Repr

namespace StoreConfig

/-- The path of the file of a table. -/
def tablePath (c : StoreConfig) (name : String) : String :=
  Path.join c.dataDir (name ++ "." ++ c.extension)

/-- Whether a path leads to a file with the extension of table files. -/
def isTableFile (c : StoreConfig) (t : FileTree) (path : String) : Bool :=
  t.isFile path && Path.extension? path == some c.extension

end StoreConfig

end RecordStore

import RecordStore.Query.Batch
import RecordStore.Table.Query

/-!
# Databases

A `Database` registers tables by name, in the order of their names. A `Store` is a database together
with the file tree that it works on; operations on it run in `Work`. A failed operation keeps the
changes that it had made.

- `Database.insert`, `Database.find?`, `Database.erase`, `Database.replace`: the registry;
- `Store.createTable`, `Store.addTable`, `Store.removeTable`: registering tables;
- `Store.openDatabase`: registers every table file of a folder;
- `Store.query`: runs a batch of queries, each on the table that it names;
- `Store.execute`: runs a batch from its text.
-/

namespace RecordStore

/-- The registered tables, in the order of their names, and where new ones are made. -/
structure Database where
  config : StoreConfig
  tables : List Table := []
  deriving DecidableEq, Repr

namespace Database

/-- The registered table with this name. -/
def find? (db : Database) (name : String) : Option Table := db.tables.find? (·.name == name)

/-- Puts a table before the first one with a greater name. -/
def insertTable (table : Table) : List Table → List Table
  | [] => [table]
  | t :: ts => if table.name < t.name then table :: t :: ts else t :: insertTable table ts

/-- The database with one more table. -/
def insert (db : Database) (table : Table) : Database :=
  { db with tables := insertTable table db.tables }

/-- The database without the table of this name. -/
def erase (db : Database) (name : String) : Database :=
  { db with tables := db.tables.filter (·.name != name) }

/-- The database with another handle in the place of the one that has the same name. -/
def replace (db : Database) (table : Table) : Database :=
  { db with tables := db.tables.map fun t => if t.name == table.name then table else t }

/-- The names of the registered tables, in order. -/
def names (db : Database) : List String := db.tables.map (·.name)

/-- Registers a table unless its name is taken. -/
def register (db : Database) (table : Table) : Except QueryError Database :=
  if (db.find? table.name).isSome then .error (.tableExists table.name)
  else .ok (db.insert table)

end Database

/-- A database and the file tree that it works on. -/
structure Store where
  database : Database
  files : FileTree

/-- Operations on a store that may fail. -/
abbrev Work := EStateM QueryError Store

/-- An operation on the files of a store. -/
def Disk.inStore {α : Type} (operation : Disk α) : Work α := fun s =>
  match operation s.files with
  | .ok a files => .ok a { s with files }
  | .error e files => .error e { s with files }

namespace Store

/-! ## Tables -/

/-- Registers a table that exists already. -/
def addTable (table : Table) : Work Unit := fun s =>
  match s.database.register table with
  | .ok database => .ok () { s with database }
  | .error e => .error e s

/-- Makes a table in the folder of the database and registers it. The name must be free. -/
def createTable (name : String) (schema : Schema) : Work Table := fun s =>
  if (s.database.find? name).isSome then .error (.tableExists name) s
  else
    match (Table.create s.database.config name schema).inStore s with
    | .ok table s => .ok table { s with database := s.database.insert table }
    | .error e s => .error e s

/-- Takes a table out of the database and leaves its file alone. -/
def removeTable (s : Store) (name : String) : Option Table × Store :=
  (s.database.find? name, { s with database := s.database.erase name })

/-! ## Opening a folder -/

/-- Registers the tables of the files that can be loaded, if their names are not taken. -/
def registerFiles (files : FileTree) (db : Database) : List String → Database
  | [] => db
  | path :: paths =>
    let next := match Table.load path files with
      | .ok table _ => (db.register table).toOption.getD db
      | .error _ _ => db
    registerFiles files next paths

/-- The paths of the table files in a folder with the given names, in ascending order. -/
def tablePaths (config : StoreConfig) (files : FileTree) (names : List String) : List String :=
  let paths := (names.map (Path.join config.dataDir)).filter (config.isTableFile files)
  paths.mergeSort fun a b => !decide (b < a)

/-- A database of every table file in a folder, which is made if it is missing. A file that cannot
be loaded, or whose table has the name of an earlier one, is passed over. -/
def openDatabase (config : StoreConfig) : Disk Database := do
  Disk.makeFolders config.dataDir
  let names ← Disk.ask config.dataDir (·.list config.dataDir)
  fun files =>
    let paths := tablePaths config files names
    .ok (registerFiles files { config } paths) files

/-! ## Queries -/

/-- Runs one query on the table that it names. -/
def queryOne (c : Circumstances) (q : Query) : Work EntrySet := fun s =>
  match s.database.find? q.table with
  | none => .error (.tableNotFound q.table) s
  | some table =>
    match (table.query c q).inStore s with
    | .ok (entries, table) s => .ok entries { s with database := s.database.replace table }
    | .error e s => .error e s

/-- Runs queries in order and puts their answers together. The first failure ends the run; what the
queries before it did stays done. The `n`-th query runs in the `n`-th circumstances. -/
def query (circumstances : Nat → Circumstances) : QuerySet → Work EntrySet
  | [] => return []
  | q :: qs => do
    let entries ← queryOne (circumstances 0) q
    let others ← query (fun n => circumstances (n + 1)) qs
    return entries.addAll others

/-- Runs the queries of a text. If a statement of it is no query, nothing is run. -/
def execute (circumstances : Nat → Circumstances) (text : String) : Work EntrySet := fun s =>
  match QuerySet.parse text with
  | .ok qs => query circumstances qs s
  | .error e => .error (.parse e) s

end Store

end RecordStore

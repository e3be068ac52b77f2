import RecordStore.Condition
import RecordStore.Record.Header
import RecordStore.Record.Reader
import RecordStore.Table

/-!
# The records that a query is about

- `selectId`: the first record with an id;
- `selectWhere`: the records that satisfy every condition;
- `Table.select`: the records of a file text that a target is about.

The header of the file must be readable, but records are decoded with the schema of the handle.
-/

namespace RecordStore

/-- A record that a query is about: the bytes it takes in the file, and its entry. -/
structure Selected where
  start : Nat
  stop : Nat
  entry : Entry
  deriving DecidableEq, Repr

namespace Table

/-- The first record with this id. Records before it are passed over without a look at their
fields. -/
def selectId (schema : Schema) (id : String) :
    List (Except Corruption RawRecord) → Except Corruption (Option Selected)
  | [] => .ok none
  | .error e :: _ => .error e
  | .ok r :: rest =>
    if r.id = id then
      (r.decode schema).map fun entry => some { start := r.start, stop := r.stop, entry }
    else selectId schema id rest

/-- The records whose entries satisfy every condition. -/
def selectWhere (schema : Schema) (conditions : List Condition) :
    List (Except Corruption RawRecord) → Except Corruption (List Selected)
  | [] => .ok []
  | .error e :: _ => .error e
  | .ok r :: rest => do
    let entry ← r.decode schema
    let others ← selectWhere schema conditions rest
    if conditions.all (·.holds entry) then
      return { start := r.start, stop := r.stop, entry } :: others
    else return others

/-- A condition for each dependency, or the error for the first that is invalid. -/
def conditions (schema : Schema) (ds : List Dependency) : Except QueryError (List Condition) :=
  ds.mapM fun d =>
    (Condition.ofDependency schema d).mapError fun fault =>
      .invalidDependency d.column fault.message

/-- The records of a file text that a target is about, in file order. -/
def select (t : Table) (text : String) (target : Target) : Except QueryError (List Selected) := do
  let header ← (Header.decode text).mapError (·.error t.path)
  let found := recordsFrom text header.length
  match target with
  | .entry id =>
    match ← (selectId t.schema id found).mapError (·.error t.path) with
    | some selected => return [selected]
    | none => throw (.entryNotFound t.name id)
  | .dependencies ds =>
    let conditions ← conditions t.schema ds
    (selectWhere t.schema conditions found).mapError (·.error t.path)

end Table

end RecordStore

import RecordStore.Table.Row
import RecordStore.Table.Selection
import RecordStore.Text.Splice

/-!
# Queries on a table

`Table.query` runs one query on a table. It answers entries and the handle as it is afterwards.
Adding an entry appends to the file without reading it; removing and setting entries read the file,
write the new content to a temporary file beside it and move that to the place of the old one.

A query is given its `Circumstances`, the two things that neither it nor the file determines.
-/

namespace RecordStore

/-- What a query cannot determine itself: the id that a new entry gets, and the milliseconds that
the query takes. -/
structure Circumstances where
  newId : String
  elapsed : UInt64
  deriving DecidableEq, Repr

namespace Table

/-- The path of the file that a new content is written to before it takes the place of the old. -/
def temporaryPath (t : Table) : String :=
  let fileName := (Path.fileName? t.path).getD t.name
  Path.withFileName t.path ("." ++ fileName ++ ".tmp")

/-- Replaces the content of the table file in one step. -/
def replaceContent (t : Table) (text : List Char) : Disk Unit := do
  let temporary := t.temporaryPath
  Disk.change temporary (·.overwrite temporary (String.ofList text).toUTF8)
  Disk.change t.path (·.rename temporary t.path)

/-- Adds an entry at the end of the file, without reading it. -/
def add (t : Table) (newId : String) (values : List Literal) : Disk EntrySet := do
  let data ← Disk.ofExcept (newRow t.schema values)
  let entry : Entry := { id := newId, data }
  Disk.change t.path (·.append t.path entry.encode.toUTF8)
  return [entry]

/-- The entries that a target is about. -/
def get (t : Table) (elapsed : UInt64) (target : Target) : Disk EntrySet := do
  let text ← Disk.readText t.path
  let selected ← Disk.ofExcept (t.select text target)
  return selected.map fun s => s.entry.timed elapsed

/-- Removes the entries that a target is about. If there are none, the file is not written. -/
def remove (t : Table) (target : Target) : Disk EntrySet := do
  let text ← Disk.readText t.path
  let selected ← Disk.ofExcept (t.select text target)
  if selected.isEmpty then return []
  let edits : List Text.Edit := selected.map fun s =>
    { start := s.start, stop := s.stop, replacement := [] }
  t.replaceContent (Text.splice 0 text.toList edits)
  return selected.map (·.entry)

/-- Replaces values in the entries that a target is about. The values are checked before the file is
read. If there are no entries, the file is not written. -/
def set (t : Table) (elapsed : UInt64) (target : Target) (values : List Literal) :
    Disk EntrySet := do
  let replacements ← Disk.ofExcept (coerceRow t.schema values)
  let text ← Disk.readText t.path
  let selected ← Disk.ofExcept (t.select text target)
  if selected.isEmpty then return []
  let updated := selected.map fun s => { s with entry := replaceValues replacements s.entry }
  let edits : List Text.Edit := updated.map fun s =>
    { start := s.start, stop := s.stop, replacement := s.entry.encodeChars }
  t.replaceContent (Text.splice 0 text.toList edits)
  return updated.map fun s => s.entry.timed elapsed

/-- Deletes the file. It may be gone already. -/
def deleteFile (t : Table) : Disk Unit :=
  Disk.change t.path fun files =>
    match files.remove t.path with
    | .error .notFound => .ok files
    | result => result

/-- Runs a query on a table that is not dropped, whatever table the query names. -/
def run (t : Table) (c : Circumstances) : Query → Disk (EntrySet × Table)
  | .add _ values => do return (← t.add c.newId values, t)
  | .get _ target => do return (← t.get c.elapsed target, t)
  | .remove _ target => do return (← t.remove target, t)
  | .set _ target values => do return (← t.set c.elapsed target values, t)
  | .drop _ => do
    t.deleteFile
    return ([], { t with dropped := true })

/-- Runs a query, whatever table it names. A handle through which its table was dropped refuses
every query. -/
def query (t : Table) (c : Circumstances) (q : Query) : Disk (EntrySet × Table) :=
  if t.dropped then Disk.ofExcept (.error (.tableDropped t.name)) else t.run c q

end Table

end RecordStore

import RecordStore.CommandLine
import RecordStore.EntryId

/-!
# The program

The command line works on a `FileTree`. `main` shows it the files that its arguments lead to, runs
it, makes the changes that it has made to the tree, and prints what it prints.

- `observed`: the paths that a command may touch;
- `observe`: adds what stands on a path, and in the folder there, to a tree;
- `writeChanges`: makes the files what a tree says.
-/

namespace RecordStore.CommandLine

/-- The absolute path of a place. -/
def absolutePath (place : Place) : String := "/" ++ "/".intercalate place

/-- The places that segments of a path lead through from a place on. -/
def trail (place : Place) : List String → List Place
  | [] => []
  | segment :: segments =>
    let next :=
      if Path.isFiller segment then place
      else if segment = ".." then place.dropLast
      else place ++ [segment]
    next :: trail next segments

/-- The paths that a command may touch: the folder of the tables, the file of the table that it
makes, and the file that it reads queries from. -/
def observed (a : Arguments) (setup : Setup) : List String :=
  let config := configOf a setup
  config.dataDir :: (((a.get? .create).map config.tablePath).toList ++ (a.get? .file).toList)

/-- Adds what stands at a place to a tree. -/
def observePlace (files : FileTree) (place : Place) : IO FileTree := do
  if place.isEmpty then return files
  let path := (← IO.currentDir) / absolutePath place
  if ← path.isDir then return files.put place .folder
  else if ← path.pathExists then return files.put place (.file (← IO.FS.readBinFile path))
  else return files

/-- Adds what stands on a path to a tree, and what is in the folder that it leads to. -/
def observe (files : FileTree) (path : String) : IO FileTree := do
  let start := if Path.isAbsolute path then [] else files.here
  let places := trail start (Path.segments path)
  let files ← places.foldlM observePlace files
  let folder := places.getLast?.getD start
  if files.find? folder ≠ some .folder then return files
  let entries ← ((← IO.currentDir) / absolutePath folder).readDir
  entries.toList.foldlM (fun files entry => observePlace files (folder ++ [entry.fileName])) files

/-- The tree of the files that a command may touch, seen from the current folder. -/
def observeAll (a : Arguments) (setup : Setup) : IO FileTree := do
  let here := (Path.segments (← IO.currentDir).toString).filter (· ≠ "")
  let files : FileTree := { nodes := [], here }
  let files ← (trail [] here).foldlM observePlace files
  (observed a setup).foldlM observe files

/-- Makes the files what the tree `after` says, where it differs from the tree `before`. -/
def writeChanges (before after : FileTree) : IO Unit := do
  for (place, node) in after.nodes.reverse do
    if before.find? place ≠ some node then
      match node with
      | .folder => IO.FS.createDirAll (absolutePath place)
      | .file content => IO.FS.writeBinFile (absolutePath place) content
  for (place, _) in before.nodes do
    if (after.find? place).isNone then IO.FS.removeFile (absolutePath place)

/-- Reads a stream to its end. -/
partial def readAll (stream : IO.FS.Stream) (already : ByteArray) : IO ByteArray := do
  let more ← stream.read 65536
  if more.isEmpty then return already else readAll stream (already ++ more)

/-- What the surroundings of the program give to a command. Reading and writing are done before and
after the queries, so these take no time themselves. -/
def currentSetup (arguments : Except Stop Arguments) : IO Setup := do
  let seed := (← IO.getRandomBytes 8).toList.foldl (fun n byte => 256 * n + byte.toUInt64) 0
  let wanted := match arguments with
    | .ok a => readsInput a
    | .error _ => false
  return {
    dataDir := ← IO.getEnv "FLATDB_DATA_DIR"
    input := ← if wanted then readAll (← IO.getStdin) ByteArray.empty else pure ByteArray.empty
    circumstances := fun n => { newId := EntryId.stream seed n, elapsed := 0 } }

end RecordStore.CommandLine

open RecordStore CommandLine in
/-- The program. -/
def main (arguments : List String) : IO UInt32 := do
  let read := Arguments.parse arguments
  let setup ← currentSetup read
  let files ← match read with
    | .ok a => observeAll a setup
    | .error _ => pure { nodes := [], here := [] }
  let outcome := CommandLine.run arguments setup files
  writeChanges files outcome.files
  IO.print outcome.output
  IO.eprint outcome.errors
  return outcome.exitCode

import RecordStore.Error
import RecordStore.FileTree

/-!
# Operations on files

`Disk` is the type of the operations that read and change a file tree and may fail with a
`QueryError`. An operation may have changed files also when it fails.

- `Disk.ask`, `Disk.change`: a question about a path and a change at a path. A failure is reported
  with the path;
- `Disk.readText`, `Disk.makeFolders`: the two that several operations share.
-/

namespace RecordStore

/-- Operations on a file tree that may fail. -/
abbrev Disk := EStateM QueryError FileTree

namespace Disk

/-- The error for a failed operation on a path. -/
def failure (path : String) (fault : Fault) : QueryError := .io path fault.kind fault.report

/-- Gives an answer or fails, and leaves the files alone. -/
def ofExcept {α : Type} : Except QueryError α → Disk α
  | .ok a => fun files => .ok a files
  | .error e => fun files => .error e files

/-- Asks something about the file at a path. -/
def ask {α : Type} (path : String) (question : FileTree → Except Fault α) : Disk α := fun files =>
  match question files with
  | .ok a => .ok a files
  | .error fault => .error (failure path fault) files

/-- Changes the file at a path. -/
def change (path : String) (update : FileTree → Except Fault FileTree) : Disk Unit := fun files =>
  match update files with
  | .ok files => .ok () files
  | .error fault => .error (failure path fault) files

/-- Makes a folder and the folders above it. -/
def makeFolders (path : String) : Disk Unit :=
  EStateM.adaptExcept (failure path) (FileTree.makeFolders path)

/-- The text of the file at a path. -/
def readText (path : String) : Disk String := ask path (·.readText path)

end Disk

end RecordStore

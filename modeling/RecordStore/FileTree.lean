import RecordStore.FileTree.Path

/-!
# File trees

A `FileTree` is the content of a file system as a value: folders and files at places below the root,
and the folder that relative paths start from. There are no links and no permissions. Names and
paths are texts, so there are no files whose names are bytes that are not UTF-8. Names have at most
255 bytes and paths fewer than 4096.

- `find?`, `put`, `erase`: the node at a place, with the laws of a finite map;
- `locate`: the place that a path leads to, following `.`, `..` and every folder on the way;
- `lookUp`: the node at the place that a path leads to;
- `read`, `isFile`, `list`: questions;
- `create`, `overwrite`, `append`, `rename`, `remove`, `makeFolder`, `makeFolders`: changes. A
  change that fails with a `Fault` leaves the tree as it was, except that `makeFolders` keeps the
  folders it has made.
-/

namespace RecordStore

/-- Names from the root downwards. The root itself has none. -/
abbrev Place := List String

/-- What stands at a place. -/
inductive Node where
  | folder
  | file (content : ByteArray)

/-- Files are equal if their bytes are. -/
instance : DecidableEq Node
  | .folder, .folder => isTrue rfl
  | .folder, .file _ => isFalse nofun
  | .file _, .folder => isFalse nofun
  | .file a, .file b =>
    if h : a.data = b.data then isTrue (congrArg Node.file (ByteArray.ext h))
    else isFalse fun hab => h (congrArg ByteArray.data (Node.file.inj hab))

/-- Folders and files by place, and the folder that relative paths start from. -/
structure FileTree where
  nodes : List (Place × Node)
  here : Place

/-- Why a file operation failed. -/
inductive Fault where
  | notFound
  | alreadyExists
  | isFolder
  | notFolder
  | nameTooLong
  | nulByte
  | notText
  deriving DecidableEq, Repr

namespace Fault

/-- The kind of the failure, as errors name it. -/
def kind : Fault → String
  | notFound => "NotFound"
  | alreadyExists => "AlreadyExists"
  | isFolder => "IsADirectory"
  | notFolder => "NotADirectory"
  | nameTooLong => "InvalidFilename"
  | nulByte => "InvalidInput"
  | notText => "InvalidData"

/-- The failure in the words of the operating system. -/
def report : Fault → String
  | notFound => "No such file or directory (os error 2)"
  | alreadyExists => "File exists (os error 17)"
  | isFolder => "Is a directory (os error 21)"
  | notFolder => "Not a directory (os error 20)"
  | nameTooLong => "File name too long (os error 36)"
  | nulByte => "file name contained an unexpected NUL byte"
  | notText => "stream did not contain valid UTF-8"

end Fault

namespace FileTree

/-! ## Places -/

/-- The node at a place. The root is always a folder. -/
def find? (t : FileTree) (p : Place) : Option Node :=
  if p.isEmpty then some .folder else t.nodes.lookup p

/-- The tree with another node at a place. -/
def put (t : FileTree) (p : Place) (n : Node) : FileTree :=
  { t with nodes := (p, n) :: t.nodes.filter (·.1 != p) }

/-- The tree without the node at a place. -/
def erase (t : FileTree) (p : Place) : FileTree :=
  { t with nodes := t.nodes.filter (·.1 != p) }

theorem lookup_filter_ne (nodes : List (Place × Node)) {p q : Place} (h : q ≠ p) :
    (nodes.filter (·.1 != p)).lookup q = nodes.lookup q := by
  induction nodes with
  | nil => rfl
  | cons a nodes ih =>
    obtain ⟨k, n⟩ := a
    by_cases hk : k = p
    · have hq : (q == k) = false := beq_eq_false_iff_ne.2 (hk ▸ h)
      simp [hk, List.lookup_cons, ih, hk ▸ hq]
    · simp [hk, List.lookup_cons, ih]

theorem lookup_filter_self (nodes : List (Place × Node)) (p : Place) :
    (nodes.filter (·.1 != p)).lookup p = none := by
  induction nodes with
  | nil => rfl
  | cons a nodes ih =>
    obtain ⟨k, n⟩ := a
    by_cases hk : k = p
    · simp [hk, ih]
    · have hp : (p == k) = false := beq_eq_false_iff_ne.2 (Ne.symm hk)
      simp [hk, List.lookup_cons, ih, hp]

@[simp] theorem find?_put_self (t : FileTree) {p : Place} (n : Node) (h : p ≠ []) :
    (t.put p n).find? p = some n := by
  simp [find?, put, h]

theorem find?_put_of_ne (t : FileTree) {p q : Place} (n : Node) (h : q ≠ p) :
    (t.put p n).find? q = t.find? q := by
  have hq : (q == p) = false := beq_eq_false_iff_ne.2 h
  simp [find?, put, List.lookup_cons, lookup_filter_ne _ h, hq]

@[simp] theorem find?_erase_self (t : FileTree) {p : Place} (h : p ≠ []) :
    (t.erase p).find? p = none := by
  simp [find?, erase, h, lookup_filter_self]

theorem find?_erase_of_ne (t : FileTree) {p q : Place} (h : q ≠ p) :
    (t.erase p).find? q = t.find? q := by
  simp [find?, erase, lookup_filter_ne _ h]

/-! ## From paths to places -/

/-- The longest name, in bytes. -/
def nameLimit : Nat := 255

/-- The longest path, in bytes. -/
def pathLimit : Nat := 4095

/-- Follows folders from a place downwards. -/
def walk (t : FileTree) (base : Place) : List String → Except Fault Place
  | [] => .ok base
  | segment :: segments =>
    if segment = "." then walk t base segments
    else if segment = ".." then walk t base.dropLast segments
    else if nameLimit < segment.utf8ByteSize then .error .nameTooLong
    else
      match t.find? (base ++ [segment]) with
      | none => .error .notFound
      | some (.file _) => .error .notFolder
      | some .folder => walk t (base ++ [segment]) segments

/-- How a path ends: with a name, with a name and a slash, or with `.`, `..` or the root. -/
inductive Ending where
  | name
  | slash
  | dots
  deriving DecidableEq, Repr

/-- The place that a path leads to, which need not exist, and how the path ends. The folder it is in
exists. -/
def locate (t : FileTree) (path : String) : Except Fault (Place × Ending) :=
  if path.toList.contains '\x00' then .error .nulByte
  else if path.toList.isEmpty then .error .notFound
  else if pathLimit < path.utf8ByteSize then .error .nameTooLong
  else
    let start := if Path.isAbsolute path then [] else t.here
    let segments := (Path.segments path).filter (· ≠ "")
    match walk t start segments.dropLast with
    | .error fault => .error fault
    | .ok parent =>
      match segments.getLast? with
      | none => .ok ([], .dots)
      | some last =>
        if last = "." then .ok (parent, .dots)
        else if last = ".." then .ok (parent.dropLast, .dots)
        else if path.toList.getLast? = some '/' then .ok (parent ++ [last], .slash)
        else .ok (parent ++ [last], .name)

/-- The node at a place in a folder that exists. There is no looking for a name that is too long. -/
def lookUp (t : FileTree) (p : Place) : Except Fault (Option Node) :=
  if p.getLast?.any (nameLimit < ·.utf8ByteSize) then .error .nameTooLong else .ok (t.find? p)

/-- The file that a path leads to. -/
def locateFile (t : FileTree) (path : String) : Except Fault (Place × ByteArray) := do
  let (place, ending) ← t.locate path
  match ← t.lookUp place with
  | none => .error .notFound
  | some .folder => .error .isFolder
  | some (.file content) => if ending = .name then .ok (place, content) else .error .notFolder

/-! ## Questions -/

/-- The bytes of a file. -/
def read (t : FileTree) (path : String) : Except Fault ByteArray :=
  (t.locateFile path).map (·.2)

/-- The text of a file, if its bytes are UTF-8. -/
def readText (t : FileTree) (path : String) : Except Fault String := do
  let content ← t.read path
  match String.fromUTF8? content with
  | some text => .ok text
  | none => .error .notText

/-- Whether a path leads to a file. -/
def isFile (t : FileTree) (path : String) : Bool :=
  match t.locateFile path with
  | .ok _ => true
  | .error _ => false

/-- Whether a path leads to a folder. -/
def isFolder (t : FileTree) (path : String) : Bool :=
  match t.locate path with
  | .ok (place, _) => t.find? place == some .folder
  | .error _ => false

/-- The last name of a place directly below a folder. -/
def nameBelow? (folder place : Place) : Option String :=
  match place.getLast? with
  | some name => if place.dropLast = folder then some name else none
  | none => none

/-- The names in a folder, in no particular order. -/
def list (t : FileTree) (path : String) : Except Fault (List String) := do
  let (place, _) ← t.locate path
  match ← t.lookUp place with
  | none => .error .notFound
  | some (.file _) => .error .notFolder
  | some .folder => .ok (t.nodes.filterMap fun (p, _) => nameBelow? place p)

/-! ## Changes -/

/-- Makes a file that does not exist yet. A name with a slash after it is that of a folder, whatever
stands there. -/
def create (t : FileTree) (path : String) (content : ByteArray) : Except Fault FileTree := do
  let (place, ending) ← t.locate path
  if ending = .slash then .error .isFolder
  else if (← t.lookUp place).isSome then .error .alreadyExists
  else .ok (t.put place (.file content))

/-- Makes a file or replaces its content. -/
def overwrite (t : FileTree) (path : String) (content : ByteArray) : Except Fault FileTree := do
  let (place, ending) ← t.locate path
  if ending ≠ .name then .error .isFolder
  else if (← t.lookUp place) = some .folder then .error .isFolder
  else .ok (t.put place (.file content))

/-- Adds bytes at the end of a file that exists. -/
def append (t : FileTree) (path : String) (more : ByteArray) : Except Fault FileTree := do
  let (place, content) ← t.locateFile path
  .ok (t.put place (.file (content ++ more)))

/-- Moves a file to another path and replaces the file there. -/
def rename (t : FileTree) (source target : String) : Except Fault FileTree := do
  let (old, content) ← t.locateFile source
  let (new, ending) ← t.locate target
  let replaced ← t.lookUp new
  if ending ≠ .name then .error .notFolder
  else if replaced = some .folder then .error .isFolder
  else .ok ((t.erase old).put new (.file content))

/-- Deletes a file. -/
def remove (t : FileTree) (path : String) : Except Fault FileTree := do
  let (place, _) ← t.locateFile path
  .ok (t.erase place)

/-- Makes a folder in a folder that exists. -/
def makeFolder (t : FileTree) (path : String) : Except Fault FileTree := do
  let (place, _) ← t.locate path
  if (← t.lookUp place).isSome then .error .alreadyExists else .ok (t.put place .folder)

/-- Makes a folder, and the folders above it that are missing if `depth` allows it. -/
def makeFoldersWithin (depth : Nat) (path : String) : EStateM Fault FileTree Unit := fun t =>
  if path.isEmpty then .ok () t
  else
    match t.makeFolder path with
    | .ok t => .ok () t
    | .error .notFound =>
      match depth, Path.parent? path with
      | depth + 1, some parent =>
        match makeFoldersWithin depth parent t with
        | .error fault t => .error fault t
        | .ok () t =>
          match t.makeFolder path with
          | .ok t => .ok () t
          | .error fault => if t.isFolder path then .ok () t else .error fault t
      | _, _ => .error .notFound t
    | .error fault => if t.isFolder path then .ok () t else .error fault t

/-- Makes a folder and the folders above it, as far as they are missing. -/
def makeFolders (path : String) : EStateM Fault FileTree Unit :=
  makeFoldersWithin (Path.segments path).length path

end FileTree

end RecordStore

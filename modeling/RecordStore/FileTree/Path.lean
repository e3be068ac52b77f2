import RecordStore.Text.Split

/-!
# Paths

A path is a text of names between slashes. These functions work on its spelling alone; what a path
leads to is decided by a file tree.

- `segments`: the texts between slashes;
- `join`: a path below another one, or the second alone if it is absolute;
- `fileName?`, `extension?`, `parent?`: the last name of a path, what follows its last dot, and the
  path without it. Empty segments and `.` behind a name do not count;
- `withFileName`: the path with another last name.
-/

namespace RecordStore.Path

/-- The texts between the slashes of a path. -/
def segments (path : String) : List String :=
  (Text.splitOn '/' path.toList).map String.ofList

/-- Whether the path starts at the root. -/
def isAbsolute (path : String) : Bool := path.toList.head? == some '/'

/-- The path of `name` as seen from the folder `dir`. -/
def join (dir name : String) : String :=
  if isAbsolute name || dir.toList.isEmpty then name
  else if dir.toList.getLast? == some '/' then dir ++ name
  else dir ++ "/" ++ name

/-- Whether a segment leaves a path where it is. -/
def isFiller (segment : String) : Bool := segment == "" || segment == "."

/-- The last segment that is a name, if no `..` comes after it. -/
def fileName? (path : String) : Option String :=
  match (segments path).reverse.dropWhile isFiller with
  | [] => none
  | last :: _ => if last = ".." then none else some last

/-- What follows the last dot of the last name. A dot at its start does not count. -/
def extension? (path : String) : Option String := do
  let name ← fileName? path
  let reversed := name.toList.reverse
  let (after, before) ← Text.cut? '.' reversed
  if before.isEmpty then none else some (String.ofList after.reverse)

/-- The path without its last segment that is not filler, and without the filler before that. -/
def parent? (path : String) : Option String :=
  match (segments path).reverse.dropWhile isFiller with
  | [] => if path = "." then some "" else none
  | _ :: before =>
    match before.dropWhile isFiller with
    | [] =>
      if isAbsolute path then some "/"
      else if (segments path).head? == some "." then some "."
      else some ""
    | rest => some ("/".intercalate rest.reverse)

/-- The path with another last name. -/
def withFileName (path name : String) : String :=
  match fileName? path with
  | none => join path name
  | some _ => join ((parent? path).getD "") name

end RecordStore.Path

import RecordStore.Json.Number

/-!
# JSON values

- `Json`: a JSON text as a tree. Members of an object keep their order, and a key may occur twice.
- `Json.unreadable`: a part of a text that is well formed and may be skipped, but that has no value:
  a string in which an escape names one half of a surrogate pair without the other, or an object
  with such a key.
- `Json.readable`: whether a whole tree has a value and is not nested too deeply to be kept.
- `Json.int`, `Json.float`: numbers. A float that is not finite is written as `null`.
-/

namespace RecordStore

/-- A JSON text as a tree. -/
inductive Json where
  | null
  | bool (value : Bool)
  | number (value : Json.Number)
  | string (text : String)
  | array (elements : List Json)
  | object (members : List (String × Json))
  | unreadable
  deriving Repr

namespace Json

/-- An integer. -/
def int (n : Int) : Json := .number (.ofInt n)

/-- A float, or `null` if it is not finite. -/
def float (x : Float) : Json := if x.isFinite then .number (.ofFloat x) else .null

/-- A string of characters. -/
def ofChars (cs : List Char) : Json := .string (String.ofList cs)

/-- An object with a single member. -/
def tagged (name : String) (content : Json) : Json := .object [(name, content)]

mutual

/-- Whether every string and number of the tree has a value, and no array or object in it is nested
in as many as `depth` others. -/
def readable (depth : Nat) : Json → Bool
  | .null | .bool _ | .string _ => true
  | .number n => n.toFloat?.isSome
  | .array elements =>
    match depth with
    | 0 => false
    | depth + 1 => readableElements depth elements
  | .object members =>
    match depth with
    | 0 => false
    | depth + 1 => readableMembers depth members
  | .unreadable => false

/-- `readable` for the elements of an array. -/
def readableElements (depth : Nat) : List Json → Bool
  | [] => true
  | element :: rest => readable depth element && readableElements depth rest

/-- `readable` for the members of an object. -/
def readableMembers (depth : Nat) : List (String × Json) → Bool
  | [] => true
  | (_, content) :: rest => readable depth content && readableMembers depth rest

end

end Json

end RecordStore

import RecordStore.Json.Basic

/-!
# Structures and variants in JSON

- `fields?`: the contents of a structure by the names of its fields. A structure is an object, in
  which other members are passed over and no field occurs twice, or an array of the fields in order;
- `variant?`: a value of a sum type, an object whose only member is named for the constructor. A
  constructor without content may also be the bare name;
- `list?`, `pairOf?`, `text?`, `flag?`, `int64?`, `word?`, `count?`, `float?`: the other shapes.

Each answers nothing if the tree has another shape.
-/

namespace RecordStore.Json

/-- The content of the only member with this name, nothing if there is none. Fails if there are
several. -/
def field? (members : List (String × Json)) (name : String) : Option (Option Json) :=
  match members.filter (·.1 == name) with
  | [] => some none
  | [(_, content)] => some (some content)
  | _ => none

/-- The contents of the named fields of a structure, nothing for a missing one. -/
def fields? (names : List String) : Json → Option (List (Option Json))
  | .object members => names.mapM (field? members)
  | .array elements =>
    if elements.length ≤ names.length then
      some (elements.map some ++ List.replicate (names.length - elements.length) none)
    else none
  | _ => none

/-- The name of a constructor and its content, nothing for the bare name. -/
def variant? : Json → Option (String × Option Json)
  | .string name => some (name, none)
  | .object [(name, content)] => some (name, some content)
  | _ => none

/-- Whether the content of a variant is that of a constructor without content. If `lax`, an object
without members is as good as `null`. -/
def isUnit (lax : Bool) : Option Json → Bool
  | none => true
  | some .null => true
  | some (.object []) => lax
  | some _ => false

/-- The elements of an array. -/
def list? {α : Type} (decode : Json → Option α) : Json → Option (List α)
  | .array elements => elements.mapM decode
  | _ => none

/-- The two elements of an array. -/
def pairOf? {α β : Type} (first : Json → Option α) (second : Json → Option β) :
    Json → Option (α × β)
  | .array [a, b] => do return (← first a, ← second b)
  | _ => none

/-- A string. -/
def text? : Json → Option String
  | .string s => some s
  | _ => none

/-- A truth value. -/
def flag? : Json → Option Bool
  | .bool b => some b
  | _ => none

/-- An integer of at most 64 bits, with or without sign. -/
def int? : Json → Option Int
  | .number n => n.toInt?
  | _ => none

/-- An integer with a 64-bit two's complement form. -/
def int64? (json : Json) : Option Int64 :=
  (int? json).bind fun n => if Numeral.fitsInt64 n then some (Int64.ofInt n) else none

/-- A natural number of at most 64 bits. -/
def count? (json : Json) : Option Nat :=
  (int? json).bind fun n => if 0 ≤ n then some n.toNat else none

/-- A 64-bit word. -/
def word? (json : Json) : Option UInt64 := (count? json).map UInt64.ofNat

/-- A float. -/
def float? : Json → Option Float
  | .number n => n.toFloat?
  | _ => none

end RecordStore.Json

import RecordStore.Entry
import RecordStore.Json.Fields

/-!
# Entries in JSON

The data of an entry is an array of pairs of a column's name and a value. The time that a query took
is written only if there is one, and may be missing or `null` when an entry is read. A decimal that
is not finite is written as `null`, which is read as no decimal.
-/

namespace RecordStore

/-- A value in JSON. -/
def Value.toJson : Value → Json
  | int n => .tagged "Int" (.int n.toInt)
  | dec x => .tagged "Dec" (.float x)
  | str s => .tagged "Str" (.string s)

/-- The value that a tree stands for. -/
def Value.ofJson? (json : Json) : Option Value := do
  match ← json.variant? with
  | ("Int", some content) => return .int (← content.int64?)
  | ("Dec", some content) => return .dec (← content.float?)
  | ("Str", some content) => return .str (← content.text?)
  | _ => none

/-- The value of a column in JSON. -/
def cellToJson (cell : String × Value) : Json := .array [.string cell.1, cell.2.toJson]

namespace Entry

/-- The time that a query took, in JSON. -/
def timeToJson : Option UInt64 → List (String × Json)
  | none => []
  | some time => [("query_time_ms", .int time.toNat)]

/-- An entry in JSON. -/
def toJson (e : Entry) : Json :=
  .object
    ([("id", .string e.id), ("data", .array (e.data.map cellToJson))] ++ timeToJson e.queryTime)

/-- The time that a tree stands for. `null` is no time, like a missing one. -/
def timeOfJson? : Option Json → Option (Option UInt64)
  | none => some none
  | some .null => some none
  | some time => time.word?.map some

/-- The entry that a tree stands for. -/
def ofJson? (json : Json) : Option Entry :=
  match json.fields? ["id", "data", "query_time_ms"] with
  | some [some id, some data, time] => do
    return {
      id := ← id.text?
      data := ← data.list? (Json.pairOf? Json.text? Value.ofJson?)
      queryTime := ← timeOfJson? time }
  | _ => none

end Entry

namespace EntrySet

/-- The entries in JSON. -/
def toJson (s : EntrySet) : Json := .array (s.map Entry.toJson)

/-- The entries that a tree stands for. -/
def ofJson? (json : Json) : Option EntrySet := json.list? Entry.ofJson?

end EntrySet

end RecordStore

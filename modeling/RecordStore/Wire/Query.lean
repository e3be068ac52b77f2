import RecordStore.Json.Fields
import RecordStore.Query

/-!
# Queries in JSON

A structure is an object with its fields in a fixed order, a constructor an object with one member
named for it. `toJson` writes a value of each type and `ofJson?` reads it.
-/

namespace RecordStore

/-- A literal in JSON. -/
def Literal.toJson (l : Literal) : Json :=
  .object [("text", .string l.text), ("quoted", .bool l.quoted)]

/-- The literal that a tree stands for. -/
def Literal.ofJson? (json : Json) : Option Literal :=
  match json.fields? ["text", "quoted"] with
  | some [some text, some quoted] => do
    return { text := ← text.text?, quoted := ← quoted.flag? }
  | _ => none

/-- The name of a comparator in JSON. -/
def Comparator.label : Comparator → String
  | equals => "Equals"
  | notEquals => "NotEquals"
  | contains => "Contains"
  | notContains => "NotContains"

/-- The comparator with this name. -/
def Comparator.ofLabel? : String → Option Comparator
  | "Equals" => some equals
  | "NotEquals" => some notEquals
  | "Contains" => some contains
  | "NotContains" => some notContains
  | _ => none

/-- The comparator that a tree stands for. -/
def Comparator.ofJson? (json : Json) : Option Comparator := do
  let (name, content) ← json.variant?
  if Json.isUnit false content then ofLabel? name else none

/-- A dependency in JSON. -/
def Dependency.toJson (d : Dependency) : Json :=
  .object
    [("column", .string d.column), ("comparator", .string d.comparator.label),
      ("value", d.value.toJson)]

/-- The dependency that a tree stands for. -/
def Dependency.ofJson? (json : Json) : Option Dependency :=
  match json.fields? ["column", "comparator", "value"] with
  | some [some column, some comparator, some value] => do
    return {
      column := ← column.text?
      comparator := ← Comparator.ofJson? comparator
      value := ← Literal.ofJson? value }
  | _ => none

/-- A target in JSON. -/
def Target.toJson : Target → Json
  | .entry id => .tagged "EntryId" (.string id)
  | .dependencies ds => .tagged "Dependencies" (.array (ds.map Dependency.toJson))

/-- The target that a tree stands for. -/
def Target.ofJson? (json : Json) : Option Target := do
  match ← json.variant? with
  | ("EntryId", some content) => return .entry (← content.text?)
  | ("Dependencies", some content) => return .dependencies (← content.list? Dependency.ofJson?)
  | _ => none

/-- Literals in JSON. -/
def valuesToJson (values : List Literal) : Json := .array (values.map Literal.toJson)

namespace Query

/-- A query in JSON. -/
def toJson : Query → Json
  | add table values =>
    .tagged "Add" (.object [("table", .string table), ("values", valuesToJson values)])
  | remove table target =>
    .tagged "Remove" (.object [("table", .string table), ("target", target.toJson)])
  | get table target =>
    .tagged "Get" (.object [("table", .string table), ("target", target.toJson)])
  | set table target values =>
    .tagged "Set"
      (.object
        [("table", .string table), ("target", target.toJson), ("values", valuesToJson values)])
  | drop table => .tagged "Drop" (.object [("table", .string table)])

/-- The query with this constructor and fields. -/
def ofFields? : String → Json → Option Query
  | "Add", content =>
    match content.fields? ["table", "values"] with
    | some [some table, some values] => do
      return .add (← table.text?) (← values.list? Literal.ofJson?)
    | _ => none
  | "Remove", content =>
    match content.fields? ["table", "target"] with
    | some [some table, some target] => do
      return .remove (← table.text?) (← Target.ofJson? target)
    | _ => none
  | "Get", content =>
    match content.fields? ["table", "target"] with
    | some [some table, some target] => do
      return .get (← table.text?) (← Target.ofJson? target)
    | _ => none
  | "Set", content =>
    match content.fields? ["table", "target", "values"] with
    | some [some table, some target, some values] => do
      return .set (← table.text?) (← Target.ofJson? target) (← values.list? Literal.ofJson?)
    | _ => none
  | "Drop", content =>
    match content.fields? ["table"] with
    | some [some table] => do return .drop (← table.text?)
    | _ => none
  | _, _ => none

/-- The query that a tree stands for. -/
def ofJson? (json : Json) : Option Query := do
  let (name, content) ← json.variant?
  ofFields? name (← content)

end Query

end RecordStore

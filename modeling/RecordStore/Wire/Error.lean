import RecordStore.Error
import RecordStore.Json.Fields

/-!
# Errors in JSON

An error is an object with one member named for its constructor. Those without fields are written as
the bare name. The decoders take a flag that makes an object without members as good as no content.
-/

namespace RecordStore

/-- The name of a storage type in JSON. -/
def StorageType.title : StorageType → String
  | integer => "Integer"
  | decimal => "Decimal"
  | string => "String"

/-- The storage type with this name. -/
def StorageType.ofTitle? : String → Option StorageType
  | "Integer" => some integer
  | "Decimal" => some decimal
  | "String" => some string
  | _ => none

/-- The storage type that a tree stands for. -/
def StorageType.ofJson? (lax : Bool) (json : Json) : Option StorageType := do
  let (name, content) ← json.variant?
  if Json.isUnit lax content then ofTitle? name else none

/-- The only field of a structure, a string. -/
def Json.only? (name : String) (json : Json) : Option String :=
  match json.fields? [name] with
  | some [some content] => content.text?
  | _ => none

/-- The two fields of a structure, both strings. -/
def Json.both? (first second : String) (json : Json) : Option (String × String) :=
  match json.fields? [first, second] with
  | some [some a, some b] => do return (← a.text?, ← b.text?)
  | _ => none

namespace ParseError

/-- The name of the constructor in JSON. -/
def kind : ParseError → String
  | missingTable => "MissingTable"
  | malformedValueList _ => "MalformedValueList"
  | missingEntryId => "MissingEntryId"
  | unknownComparator _ => "UnknownComparator"
  | emptyWhere => "EmptyWhere"
  | missingValue _ => "MissingValue"
  | unknownAction _ => "UnknownAction"
  | malformedDrop _ => "MalformedDrop"
  | unterminatedQuote _ => "UnterminatedQuote"
  | unexpectedToken _ _ => "UnexpectedToken"

/-- The fields in JSON. -/
def fieldsToJson : ParseError → List (String × Json)
  | missingTable | missingEntryId | emptyWhere => []
  | malformedValueList reason => [("reason", .string reason)]
  | unknownComparator found => [("found", .string found)]
  | missingValue column => [("column", .string column)]
  | unknownAction found => [("found", .string found)]
  | malformedDrop found => [("found", .string found)]
  | unterminatedQuote position => [("position", .int position)]
  | unexpectedToken expected found => [("expected", .string expected), ("found", .string found)]

/-- An error in JSON. -/
def toJson (e : ParseError) : Json :=
  match e.fieldsToJson with
  | [] => .string e.kind
  | fields => .tagged e.kind (.object fields)

/-- The error without fields that has this name. -/
def ofUnit? : String → Option ParseError
  | "MissingTable" => some missingTable
  | "MissingEntryId" => some missingEntryId
  | "EmptyWhere" => some emptyWhere
  | _ => none

/-- The error with this constructor and fields. -/
def ofFields? : String → Json → Option ParseError
  | "MalformedValueList", content => (content.only? "reason").map malformedValueList
  | "UnknownComparator", content => (content.only? "found").map unknownComparator
  | "MissingValue", content => (content.only? "column").map missingValue
  | "UnknownAction", content => (content.only? "found").map unknownAction
  | "MalformedDrop", content => (content.only? "found").map malformedDrop
  | "UnterminatedQuote", content =>
    match content.fields? ["position"] with
    | some [some position] => position.count?.map unterminatedQuote
    | _ => none
  | "UnexpectedToken", content =>
    (content.both? "expected" "found").map fun (expected, found) => unexpectedToken expected found
  | _, _ => none

/-- The error that a tree stands for. -/
def ofJson? (lax : Bool) (json : Json) : Option ParseError := do
  let (name, content) ← json.variant?
  match ofUnit? name with
  | some e => if Json.isUnit lax content then some e else none
  | none => ofFields? name (← content)

end ParseError

namespace QueryError

/-- The name of the constructor in JSON. -/
def kind : QueryError → String
  | parse _ => "Parse"
  | typeMismatch _ _ _ => "TypeMismatch"
  | valueCountMismatch _ _ => "ValueCountMismatch"
  | invalidDependency _ _ => "InvalidDependency"
  | entryNotFound _ _ => "EntryNotFound"
  | tableNotFound _ => "TableNotFound"
  | tableDropped _ => "TableDropped"
  | tableExists _ => "TableExists"
  | invalidSchema _ => "InvalidSchema"
  | invalidRequest _ => "InvalidRequest"
  | corruptTable _ _ _ => "CorruptTable"
  | io _ _ _ => "Io"

/-- What the constructor holds, in JSON. -/
def contentToJson : QueryError → Json
  | parse error => error.toJson
  | typeMismatch column value expected =>
    .object
      [("column", .string column), ("value", .string value), ("expected", .string expected.title)]
  | valueCountMismatch expected found =>
    .object [("expected", .int expected), ("found", .int found)]
  | invalidDependency column reason =>
    .object [("column", .string column), ("reason", .string reason)]
  | entryNotFound table id => .object [("table", .string table), ("id", .string id)]
  | tableNotFound table => .object [("table", .string table)]
  | tableDropped table => .object [("table", .string table)]
  | tableExists table => .object [("table", .string table)]
  | invalidSchema reason => .object [("reason", .string reason)]
  | invalidRequest reason => .object [("reason", .string reason)]
  | corruptTable path offset reason =>
    .object [("path", .string path), ("offset", .int offset), ("reason", .string reason)]
  | io path kind report =>
    .object [("path", .string path), ("kind", .string kind), ("message", .string report)]

/-- An error in JSON. -/
def toJson (e : QueryError) : Json := .tagged e.kind e.contentToJson

/-- The error with this constructor and content. -/
def ofContent? (lax : Bool) : String → Json → Option QueryError
  | "Parse", content => (ParseError.ofJson? lax content).map parse
  | "TypeMismatch", content =>
    match content.fields? ["column", "value", "expected"] with
    | some [some column, some value, some expected] => do
      return typeMismatch (← column.text?) (← value.text?) (← StorageType.ofJson? lax expected)
    | _ => none
  | "ValueCountMismatch", content =>
    match content.fields? ["expected", "found"] with
    | some [some expected, some found] => do
      return valueCountMismatch (← expected.count?) (← found.count?)
    | _ => none
  | "InvalidDependency", content =>
    (content.both? "column" "reason").map fun (column, reason) => invalidDependency column reason
  | "EntryNotFound", content =>
    (content.both? "table" "id").map fun (table, id) => entryNotFound table id
  | "TableNotFound", content => (content.only? "table").map tableNotFound
  | "TableDropped", content => (content.only? "table").map tableDropped
  | "TableExists", content => (content.only? "table").map tableExists
  | "InvalidSchema", content => (content.only? "reason").map invalidSchema
  | "InvalidRequest", content => (content.only? "reason").map invalidRequest
  | "CorruptTable", content =>
    match content.fields? ["path", "offset", "reason"] with
    | some [some path, some offset, some reason] => do
      return corruptTable (← path.text?) (← offset.count?) (← reason.text?)
    | _ => none
  | "Io", content =>
    match content.fields? ["path", "kind", "message"] with
    | some [some path, some kind, some report] => do
      return io (← path.text?) (← kind.text?) (← report.text?)
    | _ => none
  | _, _ => none

/-- The error that a tree stands for. -/
def ofJson? (lax : Bool) (json : Json) : Option QueryError := do
  let (name, content) ← json.variant?
  ofContent? lax name (← content)

end QueryError

end RecordStore

import RecordStore.Schema

/-!
# Errors

- `ParseError`: why a text is not a query;
- `QueryError`: why a query, or another operation on a store, failed.

Each has a `message`. Errors travel between programs, so they hold only texts and numbers: an error
of the file system keeps the kind and the wording of the system's own report.
-/

namespace RecordStore

open Text (quote)

/-- Why a text is not a query. -/
inductive ParseError where
  | missingTable
  | malformedValueList (reason : String)
  | missingEntryId
  | unknownComparator (found : String)
  | emptyWhere
  | missingValue (column : String)
  | unknownAction (found : String)
  | malformedDrop (found : String)
  | unterminatedQuote (position : Nat)
  | unexpectedToken (expected : String) (found : String)
  deriving DecidableEq, Repr

/-- The error in words. -/
def ParseError.message : ParseError → String
  | missingTable => "missing table target: query must end with `IN <table>`"
  | malformedValueList reason => "malformed value list: " ++ reason
  | missingEntryId => "missing entry id after ENTRY"
  | unknownComparator found =>
    "unknown comparator " ++ quote found ++ ", expected IS, NOT, INCLUDES or EXCLUDES"
  | emptyWhere => "empty WHERE clause"
  | missingValue column => "missing value for dependency on column " ++ quote column
  | unknownAction found =>
    "unknown action " ++ quote found ++ ", expected ADD, REMOVE, GET, SET or DROP"
  | malformedDrop found => "malformed DROP: expected `DROP <table>`, got " ++ quote found
  | unterminatedQuote position => "unterminated quoted value starting at " ++ toString position
  | unexpectedToken expected found => "expected " ++ expected ++ ", found " ++ found

/-- Why an operation on a store failed. -/
inductive QueryError where
  | parse (error : ParseError)
  | typeMismatch (column : String) (value : String) (expected : StorageType)
  | valueCountMismatch (expected : Nat) (found : Nat)
  | invalidDependency (column : String) (reason : String)
  | entryNotFound (table : String) (id : String)
  | tableNotFound (table : String)
  | tableDropped (table : String)
  | tableExists (table : String)
  | invalidSchema (reason : String)
  | invalidRequest (reason : String)
  | corruptTable (path : String) (offset : Nat) (reason : String)
  | io (path : String) (kind : String) (report : String)
  deriving DecidableEq, Repr

namespace QueryError

/-- The error in words. -/
def message : QueryError → String
  | parse error => "parse error: " ++ error.message
  | typeMismatch column value expected =>
    "type mismatch: value " ++ quote value ++ " is not a valid " ++ expected.label ++
      " for column " ++ quote column
  | valueCountMismatch expected found =>
    "value count mismatch: table has " ++ toString expected ++ " columns, got " ++
      toString found ++ " values"
  | invalidDependency column reason =>
    "invalid dependency on column " ++ quote column ++ ": " ++ reason
  | entryNotFound table id => "entry " ++ quote id ++ " not found in table " ++ quote table
  | tableNotFound table => "table " ++ quote table ++ " not found"
  | tableDropped table => "table " ++ quote table ++ " has been dropped"
  | tableExists table => "table " ++ quote table ++ " already exists"
  | invalidSchema reason => "invalid schema: " ++ reason
  | invalidRequest reason => "invalid request: " ++ reason
  | corruptTable path offset reason =>
    "corrupt table file " ++ quote path ++ " at byte " ++ toString offset ++ ": " ++ reason
  | io path kind report => "I/O error on " ++ quote path ++ " (" ++ kind ++ "): " ++ report

/-- The error for a refused name. -/
def ofName (fault : NameFault) : QueryError := .invalidSchema fault.message

/-- The error for a refused schema. -/
def ofSchema (fault : SchemaFault) : QueryError := .invalidSchema fault.message

end QueryError

end RecordStore

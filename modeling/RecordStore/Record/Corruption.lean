import RecordStore.Error

/-!
# Corruption of a table file

`Corruption` says where a table file departs from its format, as a byte offset, and how.
`Corruption.error` is the error that an operation on the file at a path reports.
-/

namespace RecordStore

/-- How a table file departs from its format. -/
inductive FormatFault where
  | missingHeader
  | unterminatedHeader
  | badName (fault : NameFault)
  | badColumn (part : String)
  | badCode (code : String)
  | badSchema (fault : SchemaFault)
  | expectedRecord
  | malformedId
  | missingId
  | unterminatedRecord
  | unexpectedBrace
  | fieldCount (expected : Nat) (found : Nat)
  | badValue (field : String) (column : String)
  deriving DecidableEq, Repr

open Text (quote)

/-- The fault in words. -/
def FormatFault.message : FormatFault → String
  | missingHeader => "missing '[' header"
  | unterminatedHeader => "unterminated header"
  | badName fault => (QueryError.ofName fault).message
  | badColumn part => "bad column " ++ quote part
  | badCode code => "bad type code " ++ quote code
  | badSchema fault => (QueryError.ofSchema fault).message
  | expectedRecord => "expected '\x7b'"
  | malformedId => "malformed entry id"
  | missingId => "missing entry id"
  | unterminatedRecord => "unterminated record"
  | unexpectedBrace => "unexpected '\x7b' inside record"
  | fieldCount expected found =>
    "expected " ++ toString expected ++ " values, found " ++ toString found
  | badValue field column => "bad value " ++ quote field ++ " for column " ++ quote column

/-- A fault of a table file at a byte offset. -/
structure Corruption where
  offset : Nat
  fault : FormatFault
  deriving DecidableEq, Repr

/-- The error that an operation on the file reports. -/
def Corruption.error (c : Corruption) (path : String) : QueryError :=
  .corruptTable path c.offset c.fault.message

end RecordStore

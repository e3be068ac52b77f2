import RecordStore.Schema
import RecordStore.Text.Blank

/-!
# Columns on the command line

The columns of a new table are given as `name:type` pairs with commas between them. Blanks around
pairs, names and types do not count, and blank pairs are passed over, but one pair must remain.
`parseColumns` reads them, or gives the first fault. It does not check the names.
-/

namespace RecordStore.CommandLine

/-- Why a text gives no columns. -/
inductive ColumnsFault where
  | notAPair (text : String)
  | unknownType (report : String)
  | noPair
  deriving DecidableEq, Repr

/-- The fault in words. -/
def ColumnsFault.message : ColumnsFault → String
  | notAPair text => "column " ++ Text.quote text ++ " is not name:type"
  | unknownType report => report
  | noPair => "--columns needs at least one name:type pair"

/-- The text without the blanks around it. -/
def trimmed (cs : List Char) : String := String.ofList (Text.trim cs)

/-- The column that a pair gives. The first colon ends the name. -/
def parsePair (pair : List Char) : Except ColumnsFault Column :=
  match Text.cut? ':' pair with
  | none => .error (.notAPair (String.ofList pair))
  | some (name, type) =>
    match StorageType.ofName (trimmed type) with
    | .ok type => .ok { name := trimmed name, type }
    | .error report => .error (.unknownType report)

/-- The pairs of a text that are not blank, without the blanks around them. -/
def pairs (text : String) : List (List Char) :=
  ((Text.splitOn ',' text.toList).map Text.trim).filter fun pair => !pair.isEmpty

/-- The schema that a text gives. -/
def parseColumns (text : String) : Except ColumnsFault Schema :=
  match (pairs text).mapM parsePair with
  | .error fault => .error fault
  | .ok [] => .error .noPair
  | .ok columns => .ok { columns }

end RecordStore.CommandLine

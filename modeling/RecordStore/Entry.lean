import RecordStore.Value

/-!
# Entries

An entry is one row of a table: an id, a value for each column, and, in the answer to a query that
read or changed it, the milliseconds that the query took. An `EntrySet` is what a query returns:
entries in order, in which the same id may occur more than once.
-/

namespace RecordStore

/-- One row of a table. -/
structure Entry where
  id : String
  data : List (String × Value)
  queryTime : Option UInt64 := none
  deriving DecidableEq, Repr

namespace Entry

/-- The value of the first column with this name. -/
def get? (e : Entry) (column : String) : Option Value :=
  (e.data.find? (·.1 == column)).map (·.2)

/-- The values in column order. -/
def values (e : Entry) : List Value := e.data.map (·.2)

/-- The entry with the time its query took. -/
def timed (time : UInt64) (e : Entry) : Entry := { e with queryTime := some time }

/-- Whether two entries are equal, decimals compared as numbers. -/
def alike (a b : Entry) : Bool :=
  a.id == b.id && a.queryTime == b.queryTime && a.data.length == b.data.length &&
    (a.data.zip b.data).all fun (x, y) => x.1 == y.1 && x.2.alike y.2

end Entry

/-- The entries a query returns, in order. -/
abbrev EntrySet := List Entry

namespace EntrySet

/-- Adds one entry at the end. -/
def push (s : EntrySet) (e : Entry) : EntrySet := s ++ [e]

/-- Adds the entries of another set at the end. -/
def addAll (s t : EntrySet) : EntrySet := s ++ t

/-- Whether an entry with this id is in the set. -/
def containsId (s : EntrySet) (id : String) : Bool := s.any (·.id == id)

/-- Whether an entry with the same id is in the set, whatever its data. -/
def contains (s : EntrySet) (e : Entry) : Bool := containsId s e.id

/-- The first entry. -/
def first? (s : EntrySet) : Option Entry := s.head?

/-- Whether two sets hold equal entries in the same order, decimals compared as numbers. -/
def alike (s t : EntrySet) : Bool :=
  s.length == t.length && (s.zip t).all fun (a, b) => a.alike b

end EntrySet

end RecordStore

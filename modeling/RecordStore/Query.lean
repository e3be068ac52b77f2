import RecordStore.Literal
import RecordStore.Token

/-!
# Queries

A query adds, removes, gets or sets entries of one table, or drops the table. The entries it is
about are a `Target`: one id, or the entries that satisfy every `Dependency` of a list. The empty
list of dependencies is satisfied by every entry.
-/

namespace RecordStore

/-- How a dependency compares the value of its column with its literal. -/
inductive Comparator where
  | equals
  | notEquals
  | contains
  | notContains
  deriving DecidableEq, Repr

/-- The keyword of a comparator. -/
def Comparator.keyword : Comparator → Keyword
  | equals => .is
  | notEquals => .not
  | contains => .includes
  | notContains => .excludes

/-- The comparator with this keyword. -/
def Comparator.ofKeyword? : Keyword → Option Comparator
  | .is => some equals
  | .not => some notEquals
  | .includes => some contains
  | .excludes => some notContains
  | _ => none

@[simp] theorem Comparator.ofKeyword?_keyword (c : Comparator) :
    ofKeyword? c.keyword = some c := by
  cases c <;> rfl

/-- A condition on the value of one column. -/
structure Dependency where
  column : String
  comparator : Comparator
  value : Literal
  deriving DecidableEq, Repr

/-- The entries that a query is about. -/
inductive Target where
  | entry (id : String)
  | dependencies (conditions : List Dependency)
  deriving DecidableEq, Repr

/-- Every entry of a table. -/
def Target.all : Target := .dependencies []

/-- One statement of the query language. -/
inductive Query where
  | add (table : String) (values : List Literal)
  | remove (table : String) (target : Target)
  | get (table : String) (target : Target)
  | set (table : String) (target : Target) (values : List Literal)
  | drop (table : String)
  deriving DecidableEq, Repr

namespace Query

/-- The table that the query names. -/
def table : Query → String
  | add table _ => table
  | remove table _ => table
  | get table _ => table
  | set table _ _ => table
  | drop table => table

/-- The target, if this kind of query has one. -/
def target? : Query → Option Target
  | remove _ target => some target
  | get _ target => some target
  | set _ target _ => some target
  | add _ _ | drop _ => none

/-- The keyword that the query starts with. -/
def action : Query → Keyword
  | add _ _ => .add
  | remove _ _ => .remove
  | get _ _ => .get
  | set _ _ _ => .set
  | drop _ => .drop

/-- Whether the query is of a kind that can change a table. -/
def isMutation : Query → Bool
  | get _ _ => false
  | _ => true

end Query

end RecordStore

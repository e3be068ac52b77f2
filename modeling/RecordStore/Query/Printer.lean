import RecordStore.Query

/-!
# Writing queries

`Query.render` writes a query in the query language, keywords in capital letters and one space
between words. A target that means every entry is left out.
-/

namespace RecordStore

/-- A list of literals between brackets. -/
def renderValues (values : List Literal) : String :=
  "[" ++ ", ".intercalate (values.map Literal.render) ++ "]"

/-- One condition: column, comparator and literal. -/
def Dependency.render (d : Dependency) : String :=
  d.column ++ " " ++ d.comparator.keyword.text ++ " " ++ d.value.render

/-- The target: an id, the conditions, or nothing for every entry. -/
def Target.render : Target → String
  | .entry id => "ENTRY " ++ id
  | .dependencies [] => ""
  | .dependencies conditions => "WHERE " ++ " AND ".intercalate (conditions.map Dependency.render)

/-- The target and a space, or nothing for every entry. -/
def Target.renderSpaced : Target → String
  | .dependencies [] => ""
  | target => target.render ++ " "

/-- The query as a statement of the query language. -/
def Query.render : Query → String
  | .add table values => "ADD " ++ renderValues values ++ " IN " ++ table
  | .remove table target => "REMOVE " ++ target.renderSpaced ++ "IN " ++ table
  | .get table target => "GET " ++ target.renderSpaced ++ "IN " ++ table
  | .set table target values =>
    "SET " ++ target.renderSpaced ++ "TO " ++ renderValues values ++ " IN " ++ table
  | .drop table => "DROP " ++ table

end RecordStore

import RecordStore.Query.Parser

/-!
# Batches of queries

A batch is written as statements that end at a new line or a `;`. Both are ordinary characters
between quotes. Blank statements are skipped.

- `splitStatements`: cuts a text at the ends of statements, given the quote that is open;
- `statements`: the statements of a text without the blanks around them;
- `QuerySet.parse`: the queries of a batch, or the error of the first statement that is none.
-/

namespace RecordStore

/-- The queries of a batch, in order. -/
abbrev QuerySet := List Query

namespace QuerySet

/-- Adds one query at the end. -/
def push (s : QuerySet) (q : Query) : QuerySet := s ++ [q]

/-- Whether a character ends a statement. -/
def endsStatement (c : Char) : Bool := c == '\n' || c == ';'

/-- Cuts a text at the ends of statements, given the quote that is open. There is always a first
part. -/
def splitStatements (quote : Option Char) : List Char → List (List Char)
  | [] => [[]]
  | c :: cs =>
    match quote with
    | some q => Text.extendFirst c (splitStatements (if c = q then none else some q) cs)
    | none =>
      if Token.isQuote c then Text.extendFirst c (splitStatements (some c) cs)
      else if endsStatement c then [] :: splitStatements none cs
      else Text.extendFirst c (splitStatements none cs)

/-- The statements of a text that are not blank, without the blanks around them. -/
def statements (text : String) : List String :=
  let parts := (splitStatements none text.toList).map Text.trim
  (parts.filter fun part => !part.isEmpty).map String.ofList

/-- The queries that the statements of a text spell. -/
def parse (text : String) : Except ParseError QuerySet :=
  (statements text).mapM Query.parse

end QuerySet

end RecordStore

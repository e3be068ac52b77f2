import RecordStore.Text.Quoted
import RecordStore.Text.Split

/-!
# Tokens of the query language

- `Keyword`: the fourteen words with a meaning of their own, in letters of either case
  (`Keyword.ofWord?`);
- `Token`: a keyword, another word, a quoted value, a bracket, a comma or the end of the text.

`Token.describe` names a token in a message.
-/

namespace RecordStore

/-- The words of the query language with a meaning of their own. -/
inductive Keyword where
  | add
  | remove
  | get
  | set
  | drop
  | entry
  | where
  | and
  | in
  | «to»
  | is
  | not
  | includes
  | excludes
  deriving DecidableEq, Repr

namespace Keyword

/-- The keyword in capital letters. -/
def text : Keyword → String
  | add => "ADD"
  | remove => "REMOVE"
  | get => "GET"
  | set => "SET"
  | drop => "DROP"
  | entry => "ENTRY"
  | «where» => "WHERE"
  | and => "AND"
  | «in» => "IN"
  | «to» => "TO"
  | is => "IS"
  | not => "NOT"
  | includes => "INCLUDES"
  | excludes => "EXCLUDES"

/-- Every keyword. -/
def all : List Keyword :=
  [add, remove, get, set, drop, entry, «where», and, «in», «to», is, not, includes, excludes]

/-- The keyword that a word is, in letters of either case. -/
def ofWord? (word : String) : Option Keyword :=
  let capitals := Text.upper word
  all.find? (·.text == capitals)

theorem mem_all (k : Keyword) : k ∈ all := by cases k <;> decide

/-- A keyword in capital letters is read as itself. -/
theorem ofWord?_text (k : Keyword) : ofWord? k.text = some k := by cases k <;> decide

end Keyword

/-- The smallest unit of a query text. -/
inductive Token where
  | keyword (k : Keyword)
  /-- A bare word, or a bare value between brackets, which may contain blanks. -/
  | word (text : String)
  /-- A value between quotes, without them. -/
  | quoted (text : String)
  | leftBracket
  | rightBracket
  | comma
  | endOfInput
  deriving DecidableEq, Repr

namespace Token

/-- The token as a message names it. -/
def describe : Token → String
  | keyword k => k.text
  | word w => Text.quote w
  | quoted q => "'" ++ q ++ "'"
  | leftBracket => "'['"
  | rightBracket => "']'"
  | comma => "','"
  | endOfInput => "end of input"

end Token

end RecordStore

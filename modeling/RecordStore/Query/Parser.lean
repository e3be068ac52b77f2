import RecordStore.Query
import RecordStore.Token.Lexer

/-!
# From tokens to queries

A `TokenReader` takes tokens from the front of a list and leaves the rest, also when it fails, so
that a message can speak of what is left. The list ends with the end of the input; a list that is
exhausted reads as if it did.

- `words`, `values`, `dependencies`: the three repetitions of the grammar;
- `target`, `tableSuffix`: the parts that several statements share;
- `statement`: one statement, after which nothing may follow;
- `Query.ofTokens`, `Query.parse`: a query from a list of tokens, and from a text.
-/

namespace RecordStore

/-- Takes tokens from the front of a list, or fails and leaves the list where it stood. -/
abbrev TokenReader := EStateM ParseError (List Token)

namespace TokenReader

/-- The token at the front. -/
def front (ts : List Token) : Token := ts.headD .endOfInput

/-- Fails because another token was expected at the front. -/
def unexpected {α : Type} (expected : String) : TokenReader α := fun ts =>
  .error (.unexpectedToken expected (front ts).describe) ts

/-- Takes one given token. -/
def take (expected : Token) : TokenReader Unit := fun ts =>
  match ts with
  | [] => unexpected expected.describe ts
  | t :: rest => if t = expected then .ok () rest else unexpected expected.describe ts

/-- The tokens that are left, as a message lists them. -/
def remaining (ts : List Token) : String :=
  " ".intercalate ((ts.filter (· ≠ .endOfInput)).map Token.describe)

/-! ## Repetitions -/

/-- The words at the front, up to the first token that is none. -/
def words : List Token → List String × List Token
  | .word w :: ts =>
    let (rest, left) := words ts
    (w :: rest, left)
  | ts => ([], ts)

/-- The literal that a token spells. -/
def literal? : Token → Option Literal
  | .word w => some (.bare w)
  | .quoted q => some (.ofQuoted q)
  | _ => none

/-- Fails because of a value list. -/
def malformed {α : Type} (reason : String) : TokenReader α := fun ts =>
  .error (.malformedValueList reason) ts

/-- Values with commas between them, up to the closing bracket, after `count` earlier ones. -/
def values (count : Nat) : TokenReader (List Literal) := fun ts =>
  match ts with
  | [] => malformed "missing closing ']'" ts
  | t :: rest =>
    match literal? t with
    | none =>
      if t = .endOfInput then malformed "missing closing ']'" ts
      else malformed ("empty value at position " ++ toString count) ts
    | some value =>
      match rest with
      | .comma :: rest =>
        match values (count + 1) rest with
        | .ok more left => .ok (value :: more) left
        | .error e left => .error e left
      | .rightBracket :: rest => .ok [value] rest
      | [] => malformed "missing closing ']'" rest
      | .endOfInput :: _ => malformed "missing closing ']'" rest
      | other :: _ => malformed ("expected ',' or ']', found " ++ other.describe) rest

/-- Values between brackets. -/
def valueList : TokenReader (List Literal) := fun ts =>
  match ts with
  | .leftBracket :: rest => values 0 rest
  | _ => malformed ("expected '[', found " ++ (front ts).describe) ts

/-- The name of a column. -/
def column : TokenReader String := fun ts =>
  match ts with
  | .word name :: rest => .ok name rest
  | _ => unexpected "column name" ts

/-- The keyword of a comparator. -/
def comparator : TokenReader Comparator := fun ts =>
  match front ts with
  | .keyword k =>
    match Comparator.ofKeyword? k with
    | some c => .ok c ts.tail
    | none => .error (.unknownComparator k.text) ts
  | .word w => .error (.unknownComparator w) ts
  | other => .error (.unknownComparator other.describe) ts

/-- The value of a condition on the named column: one quoted value, or every word up to the next
token of another kind, with single spaces between them. -/
def conditionValue (column : String) : TokenReader Literal := fun ts =>
  match ts with
  | .quoted q :: rest => .ok (.ofQuoted q) rest
  | .word w :: rest =>
    let (more, left) := words rest
    .ok (.bare (" ".intercalate (w :: more))) left
  | _ => .error (.missingValue column) ts

/-- One condition. -/
def dependency : TokenReader Dependency := do
  let column ← column
  let comparator ← comparator
  let value ← conditionValue column
  return { column, comparator, value }

theorem length_words_le (ts : List Token) : (words ts).2.length ≤ ts.length := by
  fun_induction words ts with
  | case1 w ts rest left h ih => simp only [h] at ih; simp; omega
  | case2 => simp

theorem column_shortens {ts rest : List Token} {name : String} (h : column ts = .ok name rest) :
    rest.length < ts.length := by
  unfold column at h
  split at h
  · cases h; simp
  · cases h

theorem comparator_shortens {ts rest : List Token} {c : Comparator}
    (h : comparator ts = .ok c rest) : rest.length ≤ ts.length := by
  unfold comparator at h
  split at h
  · split at h
    · cases h; simp
    · cases h
  · cases h
  · cases h

theorem conditionValue_shortens {ts rest : List Token} {name : String} {value : Literal}
    (h : conditionValue name ts = .ok value rest) : rest.length < ts.length := by
  unfold conditionValue at h
  split at h
  · cases h; simp
  · next w ts =>
    have := length_words_le ts
    cases h
    simp; omega
  · cases h

/-- Reading a condition takes at least one token, which bounds the length of a list of them. -/
theorem dependency_shortens {ts rest : List Token} {d : Dependency}
    (h : dependency ts = .ok d rest) : rest.length < ts.length := by
  simp only [dependency, bind, EStateM.bind] at h
  split at h
  · next name ts₁ h₁ =>
    have := column_shortens h₁
    split at h
    · next c ts₂ h₂ =>
      have := comparator_shortens h₂
      split at h
      · next value ts₃ h₃ =>
        have := conditionValue_shortens h₃
        cases h
        omega
      · cases h
    · cases h
  · cases h

/-- One or more conditions with `AND` between them. -/
def dependencies (ts : List Token) : EStateM.Result ParseError (List Token) (List Dependency) :=
  match h : dependency ts with
  | .error e left => .error e left
  | .ok d (.keyword .and :: rest) =>
    have := dependency_shortens h
    match dependencies rest with
    | .ok more left => .ok (d :: more) left
    | .error e left => .error e left
  | .ok d rest => .ok [d] rest
termination_by ts.length
decreasing_by simp at this; omega

/-! ## Parts of statements -/

/-- The conditions after `WHERE`, at least one. -/
def whereClause : TokenReader Target := fun ts =>
  match front ts with
  | .keyword .in | .keyword .to | .endOfInput => .error .emptyWhere ts
  | _ =>
    match dependencies ts with
    | .ok conditions rest => .ok (.dependencies conditions) rest
    | .error e rest => .error e rest

/-- The id after `ENTRY`, a word or a quoted value. -/
def entryId : TokenReader Target := fun ts =>
  match ts with
  | .word id :: rest => .ok (.entry id) rest
  | .quoted id :: rest => .ok (.entry id) rest
  | _ => .error .missingEntryId ts

/-- The target of a statement; nothing means every entry. -/
def target : TokenReader Target := fun ts =>
  match ts with
  | .keyword .entry :: rest => entryId rest
  | .keyword .where :: rest => whereClause rest
  | _ => .ok .all ts

/-- `IN` and the name of the table, which end a statement. -/
def tableSuffix : TokenReader String := fun ts =>
  match ts with
  | .keyword .in :: .word table :: rest =>
    if front rest = .endOfInput then .ok table rest
    else unexpected "end of input after table name" rest
  | .keyword .in :: rest => .error .missingTable rest
  | _ => if front ts = .endOfInput then .error .missingTable ts else unexpected "IN" ts

/-- The table after `DROP`, which ends the statement. -/
def dropTable : TokenReader String := fun ts =>
  match ts with
  | .word table :: rest =>
    if front rest = .endOfInput then .ok table rest
    else .error (.malformedDrop ("DROP " ++ table ++ " " ++ remaining rest)) rest
  | _ =>
    let found := Text.trimEnd ("DROP " ++ remaining ts).toList
    .error (.malformedDrop (String.ofList found)) ts

/-! ## Statements -/

/-- What follows the first keyword of a statement, or nothing if no statement starts with it. -/
def afterAction? : Keyword → Option (TokenReader Query)
  | .add => some do
    let values ← valueList
    let table ← tableSuffix
    return .add table values
  | .remove => some do
    let target ← target
    let table ← tableSuffix
    return .remove table target
  | .get => some do
    let target ← target
    let table ← tableSuffix
    return .get table target
  | .set => some do
    let target ← target
    take (.keyword .to)
    let values ← valueList
    let table ← tableSuffix
    return .set table target values
  | .drop => some do
    let table ← dropTable
    return .drop table
  | _ => none

/-- One statement. -/
def statement : TokenReader Query := fun ts =>
  match front ts with
  | .keyword k =>
    match afterAction? k with
    | some rest => rest ts.tail
    | none => .error (.unknownAction k.text) ts
  | .word w => .error (.unknownAction w) ts
  | .endOfInput => .error (.unknownAction "") ts
  | other => .error (.unknownAction other.describe) ts

end TokenReader

/-- The query that a list of tokens spells. -/
def Query.ofTokens (tokens : List Token) : Except ParseError Query :=
  match TokenReader.statement tokens with
  | .ok query _ => .ok query
  | .error e _ => .error e

/-- The query that a text spells. -/
def Query.parse (text : String) : Except ParseError Query := do
  let tokens ← tokenize text
  Query.ofTokens tokens

end RecordStore

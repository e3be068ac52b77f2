import RecordStore.Proofs.Sequence
import RecordStore.Query.Parser

/-!
# Reading tokens with a cursor

A statement can be read from a list of tokens that stays as it is, with a cursor that moves along
it. The cursor looks at the token where it stands and moves on by one token, but never behind the
last one: there it stays. Every look is checked, and every loop has a limit on its passes, so that
a reader that leaves the list, or that goes round for ever, comes to nothing.

- `Cursor`, `CursorReader`: a cursor and what is read with it; `Cursor.Fault`: why that comes to
  nothing;
- `current`, `advance`, `remaining`: all that is done with a cursor;
- `collect`: a loop, given what one pass of it does; `wordPass`, `valuePass`, `conditionPass`: one
  pass of each loop of the grammar;
- `statement`: one statement;
- `Cursor.At`: where a cursor stands in a list that ends with the end of the input;
- `Cursor.ComesTo`: what a reader comes to from there, by moves none of which is lost.
-/

namespace RecordStore

/-- A position in a list of tokens. -/
structure Cursor where
  tokens : List Token
  position : Nat
  /-- How often the cursor was told to move on, also where it stayed. -/
  advances : Nat

namespace Cursor

/-- A cursor at the first token. -/
def start (ts : List Token) : Cursor := { tokens := ts, position := 0, advances := 0 }

/-- Why reading with a cursor comes to nothing. -/
inductive Fault where
  /-- The cursor stands at no token. -/
  | outOfRange
  /-- A loop is not over within its limit. -/
  | unfinished

end Cursor

/-- Reads with a cursor, which moves, or fails and leaves the cursor where it stood. -/
abbrev CursorReader := ExceptT ParseError (StateT Cursor (Except Cursor.Fault))

namespace CursorReader

variable {α β : Type}

/-! ## The cursor -/

/-- The token where the cursor stands. -/
def current : CursorReader Token := ExceptT.mk fun c =>
  match c.tokens[c.position]? with
  | some t => .ok (.ok t, c)
  | none => .error .outOfRange

/-- Moves on to the next token, if there is one. An empty list has no last token to compare with. -/
def advance : CursorReader Unit := ExceptT.mk fun c =>
  match c.tokens.length with
  | 0 => .error .outOfRange
  | last + 1 =>
    let position := if c.position < last then c.position + 1 else c.position
    .ok (.ok (), { c with position, advances := c.advances + 1 })

/-- The tokens that are left, as a message lists them. -/
def remaining : CursorReader String := ExceptT.mk fun c =>
  if c.position ≤ c.tokens.length then
    .ok (.ok (TokenReader.remaining (c.tokens.drop c.position)), c)
  else .error .outOfRange

/-- Whether the input ends where the cursor stands. -/
def isAtEnd : CursorReader Bool := do return (← current) = .endOfInput

/-- Fails because another token was expected. -/
def unexpected (expected : String) : CursorReader α := do
  throw (.unexpectedToken expected (← current).describe)

/-- Takes one given token. -/
def take (expected : Token) : CursorReader Unit := do
  if (← current) = expected then advance else unexpected expected.describe

/-! ## Loops -/

/-- What one pass of a loop comes to. -/
inductive Pass (α : Type) where
  /-- Something is read, and the loop goes on. -/
  | again (a : α)
  /-- Something is read, and it is the last. -/
  | last (a : α)
  /-- There is nothing more to read. -/
  | done

/-- All that a loop reads within a limit on its passes. Each pass is given the number of passes
before it. -/
def collect (pass : Nat → CursorReader (Pass α)) : Nat → Nat → CursorReader (List α)
  | 0, _ => ExceptT.mk fun _ => .error .unfinished
  | limit + 1, count => do
    match ← pass count with
    | .again a => return a :: (← collect pass limit (count + 1))
    | .last a => return [a]
    | .done => return []

/-- One word, as long as there are any. -/
def wordPass : CursorReader (Pass String) := do
  match ← current with
  | .word w =>
    advance
    return .again w
  | _ => return .done

/-- The value behind `count` earlier ones, and the comma or the closing bracket behind it. -/
def valuePass (count : Nat) : CursorReader (Pass Literal) := do
  let t ← current
  match TokenReader.literal? t with
  | none =>
    if t = .endOfInput then throw (.malformedValueList "missing closing ']'")
    else throw (.malformedValueList ("empty value at position " ++ toString count))
  | some value =>
    advance
    match ← current with
    | .comma =>
      advance
      return .again value
    | .rightBracket =>
      advance
      return .last value
    | .endOfInput => throw (.malformedValueList "missing closing ']'")
    | other => throw (.malformedValueList ("expected ',' or ']', found " ++ other.describe))

/-- Values between brackets. -/
def valueList (limit : Nat) : CursorReader (List Literal) := do
  match ← current with
  | .leftBracket =>
    advance
    collect valuePass limit 0
  | other => throw (.malformedValueList ("expected '[', found " ++ other.describe))

/-- The name of a column. -/
def column : CursorReader String := do
  match ← current with
  | .word name =>
    advance
    return name
  | _ => unexpected "column name"

/-- The keyword of a comparator. -/
def comparator : CursorReader Comparator := do
  match ← current with
  | .keyword k =>
    match Comparator.ofKeyword? k with
    | some c =>
      advance
      return c
    | none => throw (.unknownComparator k.text)
  | .word w => throw (.unknownComparator w)
  | other => throw (.unknownComparator other.describe)

/-- The value of a condition on the named column. -/
def conditionValue (limit : Nat) (column : String) : CursorReader Literal := do
  match ← current with
  | .quoted q =>
    advance
    return .ofQuoted q
  | .word _ =>
    let words ← collect (fun _ => wordPass) limit 0
    return .bare (" ".intercalate words)
  | _ => throw (.missingValue column)

/-- One condition. -/
def dependency (limit : Nat) : CursorReader Dependency := do
  let column ← column
  let comparator ← comparator
  let value ← conditionValue limit column
  return { column, comparator, value }

/-- One condition, and the `AND` behind it if others follow. -/
def conditionPass (limit : Nat) : CursorReader (Pass Dependency) := do
  let d ← dependency limit
  if (← current) = .keyword .and then
    advance
    return .again d
  else return .last d

/-! ## Statements -/

/-- The conditions after `WHERE`, at least one. -/
def whereClause (limit : Nat) : CursorReader Target := do
  match ← current with
  | .keyword .in | .keyword .to | .endOfInput => throw .emptyWhere
  | _ => return .dependencies (← collect (fun _ => conditionPass limit) limit 0)

/-- The id after `ENTRY`, a word or a quoted value. -/
def entryId : CursorReader Target := do
  match ← current with
  | .word id | .quoted id =>
    advance
    return .entry id
  | _ => throw .missingEntryId

/-- The target of a statement; nothing means every entry. -/
def target (limit : Nat) : CursorReader Target := do
  match ← current with
  | .keyword .entry =>
    advance
    entryId
  | .keyword .where =>
    advance
    whereClause limit
  | _ => return .all

/-- `IN` and the name of the table, which end a statement. -/
def tableSuffix : CursorReader String := do
  match ← current with
  | .keyword .in =>
    advance
    match ← current with
    | .word table =>
      advance
      if ← isAtEnd then return table else unexpected "end of input after table name"
    | _ => throw .missingTable
  | .endOfInput => throw .missingTable
  | _ => unexpected "IN"

/-- The table after `DROP`, which ends the statement. -/
def dropTable : CursorReader String := do
  match ← current with
  | .word table =>
    advance
    if ← isAtEnd then return table
    else throw (.malformedDrop ("DROP " ++ table ++ " " ++ (← remaining)))
  | _ =>
    let found := Text.trimEnd ("DROP " ++ (← remaining)).toList
    throw (.malformedDrop (String.ofList found))

/-- What follows the first keyword of a statement, or nothing if no statement starts with it. -/
def afterAction? (limit : Nat) : Keyword → Option (CursorReader Query)
  | .add => some do
    let values ← valueList limit
    let table ← tableSuffix
    return .add table values
  | .remove => some do
    let target ← target limit
    let table ← tableSuffix
    return .remove table target
  | .get => some do
    let target ← target limit
    let table ← tableSuffix
    return .get table target
  | .set => some do
    let target ← target limit
    take (.keyword .to)
    let values ← valueList limit
    let table ← tableSuffix
    return .set table target values
  | .drop => some do
    let table ← dropTable
    return .drop table
  | _ => none

/-- One statement, in which no loop makes more passes than the limit. -/
def statement (limit : Nat) : CursorReader Query := do
  match ← current with
  | .keyword k =>
    match afterAction? limit k with
    | some rest =>
      take (.keyword k)
      rest
    | none => throw (.unknownAction k.text)
  | .word w => throw (.unknownAction w)
  | .endOfInput => throw (.unknownAction "")
  | other => throw (.unknownAction other.describe)

end CursorReader

/-! ## Where a cursor stands -/

variable {α β : Type}

namespace Cursor

variable {c : Cursor} {t : Token} {ts : List Token}

/-- The cursor after so many moves, none of which was lost at the last token. -/
def moved (c : Cursor) (k : Nat) : Cursor :=
  { c with position := c.position + k, advances := c.advances + k }

theorem moved_moved (c : Cursor) (j k : Nat) : (c.moved j).moved k = c.moved (j + k) := by
  simp only [moved, Nat.add_assoc]

/-- The tokens from where the cursor stands. -/
def left (c : Cursor) : List Token := c.tokens.drop c.position

theorem left_moved (h : c.left = t :: ts) : (c.moved 1).left = ts := by
  show c.tokens.drop (c.position + 1) = ts
  rw [← List.tail_drop]
  exact congrArg List.tail h

theorem length_left (c : Cursor) : c.left.length = c.tokens.length - c.position :=
  List.length_drop

/-- The cursor stands at the first token of a list, and that list ends with the end of the input. -/
structure At (c : Cursor) (ts : List Token) : Prop where
  left_eq : c.left = ts
  getLast?_eq : ts.getLast? = some .endOfInput

theorem At.exists_cons (h : c.At ts) : ∃ t rest, ts = t :: rest :=
  List.exists_cons_of_ne_nil fun hnil => by
    have hlast := h.getLast?_eq
    rw [hnil] at hlast
    cases hlast

theorem At.position_lt (h : c.At ts) : c.position < c.tokens.length := by
  obtain ⟨t, rest, rfl⟩ := h.exists_cons
  have hlength := c.length_left
  rw [h.left_eq, List.length_cons] at hlength
  omega

/-- The list gets no longer when the cursor moves on. -/
theorem At.length_le {k : Nat} {rest : List Token} (h : c.At ts) (hk : (c.moved k).At rest) :
    rest.length ≤ ts.length := by
  rw [← h.left_eq, ← hk.left_eq, length_left, length_left]
  exact Nat.sub_le_sub_left (Nat.le_add_right _ _) _

/-- Behind a token other than the end of the input there is another one. -/
theorem At.moved (h : c.At (t :: ts)) (ht : t ≠ .endOfInput) : (c.moved 1).At ts := by
  refine ⟨left_moved h.left_eq, ?_⟩
  have hlast := h.getLast?_eq
  cases ts with
  | nil => exact absurd (Option.some.inj hlast) ht
  | cons t' ts => rwa [List.getLast?_cons_cons] at hlast

end Cursor

namespace CursorReader

variable {c c' : Cursor} {t : Token} {ts : List Token}

theorem run_bind_of_ok {x : CursorReader α} {a : α} (h : x.run c = .ok (.ok a, c'))
    (f : α → CursorReader β) : (x >>= f).run c = (f a).run c' := by
  show (x.run c >>= fun p => ExceptT.bindCont f p.1 p.2) = _
  rw [h]
  rfl

theorem run_bind_of_error {x : CursorReader α} {e : ParseError}
    (h : x.run c = .ok (.error e, c')) (f : α → CursorReader β) :
    (x >>= f).run c = .ok (.error e, c') := by
  show (x.run c >>= fun p => ExceptT.bindCont f p.1 p.2) = _
  rw [h]
  rfl

theorem run_bind_of_fault {x : CursorReader α} {fault : Cursor.Fault} (h : x.run c = .error fault)
    (f : α → CursorReader β) : (x >>= f).run c = .error fault := by
  show (x.run c >>= fun p => ExceptT.bindCont f p.1 p.2) = _
  rw [h]
  rfl

theorem run_current (h : c.left = t :: ts) : current.run c = .ok (.ok t, c) := by
  have hget : c.tokens[c.position]? = some t := by
    rw [← List.head?_drop]
    exact congrArg List.head? h
  show (match c.tokens[c.position]? with | some t => _ | none => _) = _
  rw [hget]

/-- Told to move on, the cursor does so exactly if it does not stand at the last token. -/
theorem run_advance (h : c.left = t :: ts) :
    advance.run c =
      .ok (.ok (), if ts = [] then { c with advances := c.advances + 1 } else c.moved 1) := by
  have hlength := c.length_left
  rw [h, List.length_cons] at hlength
  obtain ⟨last, hlast⟩ : ∃ last, c.tokens.length = last + 1 :=
    Nat.exists_eq_add_one_of_ne_zero (by omega)
  show (match c.tokens.length with | 0 => _ | last + 1 => _) = _
  rw [hlast]
  cases ts with
  | nil =>
    rw [List.length_nil] at hlength
    dsimp only
    rw [if_neg (by omega), if_pos rfl]
  | cons t' ts =>
    rw [List.length_cons] at hlength
    dsimp only
    rw [if_pos (by omega), if_neg (List.cons_ne_nil t' ts)]
    rfl

/-- Before the end of the input no move is lost. -/
theorem run_advance_of_at (h : c.At (t :: ts)) (ht : t ≠ .endOfInput) :
    advance.run c = .ok (.ok (), c.moved 1) := by
  obtain ⟨t', rest, hts⟩ := (h.moved ht).exists_cons
  rw [run_advance h.left_eq, if_neg (hts ▸ List.cons_ne_nil t' rest)]

theorem run_take (h : c.At (t :: ts)) (ht : t ≠ .endOfInput) :
    (take t).run c = .ok (.ok (), c.moved 1) := by
  refine (run_bind_of_ok (run_current h.left_eq) _).trans ?_
  rw [if_pos rfl, run_advance_of_at h ht]

theorem run_remaining (h : c.At ts) :
    remaining.run c = .ok (.ok (TokenReader.remaining ts), c) := by
  show (if c.position ≤ c.tokens.length then _ else _) = _
  rw [if_pos (Nat.le_of_lt h.position_lt), ← h.left_eq]
  rfl

end CursorReader

/-! ## What a reader comes to -/

namespace Cursor

variable {c : Cursor} {t : Token} {ts : List Token} {P : Except ParseError α → List Token → Prop}

/-- A reader comes to a result or an error, with this property, in as many moves as it tells the
cursor to make, and leaves the cursor at a token. -/
def ComesTo (c : Cursor) (x : CursorReader α) (P : Except ParseError α → List Token → Prop) :
    Prop :=
  ∃ r k rest, x.run c = .ok (r, c.moved k) ∧ (c.moved k).At rest ∧ P r rest

theorem ComesTo.of_run_eq {y : CursorReader β} {f : β → CursorReader α} {b : β} {k : Nat}
    (hy : y.run c = .ok (.ok b, c.moved k)) (h : (c.moved k).ComesTo (f b) P) :
    c.ComesTo (y >>= f) P := by
  obtain ⟨r, j, rest, hrun, hat, hP⟩ := h
  rw [moved_moved] at hrun hat
  exact ⟨r, k + j, rest, (CursorReader.run_bind_of_ok hy f).trans hrun, hat, hP⟩

theorem At.pure (h : c.At ts) {a : α} (hP : P (.ok a) ts) : c.ComesTo (pure a) P :=
  ⟨.ok a, 0, ts, rfl, h, hP⟩

theorem At.throw (h : c.At ts) {e : ParseError} (hP : P (.error e) ts) : c.ComesTo (throw e) P :=
  ⟨.error e, 0, ts, rfl, h, hP⟩

/-- A look at the next token. -/
theorem At.current (h : c.At (t :: ts)) {f : Token → CursorReader α} (hf : c.ComesTo (f t) P) :
    c.ComesTo (CursorReader.current >>= f) P :=
  .of_run_eq (k := 0) (CursorReader.run_current h.left_eq) hf

/-- A move over a token before the end of the input. -/
theorem At.advance (h : c.At (t :: ts)) (ht : t ≠ .endOfInput) {f : Unit → CursorReader α}
    (hf : (c.moved 1).At ts → (c.moved 1).ComesTo (f ()) P) :
    c.ComesTo (CursorReader.advance >>= f) P :=
  .of_run_eq (CursorReader.run_advance_of_at h ht) (hf (h.moved ht))

/-- The given token, which stands there. -/
theorem At.take (h : c.At (t :: ts)) (ht : t ≠ .endOfInput) {f : Unit → CursorReader α}
    (hf : (c.moved 1).At ts → (c.moved 1).ComesTo (f ()) P) :
    c.ComesTo (CursorReader.take t >>= f) P :=
  .of_run_eq (CursorReader.run_take h ht) (hf (h.moved ht))

theorem At.unexpected (h : c.At (t :: ts)) {expected : String}
    (hP : P (.error (.unexpectedToken expected t.describe)) (t :: ts)) :
    c.ComesTo (CursorReader.unexpected expected) P :=
  h.current (h.throw hP)

/-- A look at all tokens that are left. -/
theorem At.remaining (h : c.At ts) {f : String → CursorReader α}
    (hf : c.ComesTo (f (TokenReader.remaining ts)) P) :
    c.ComesTo (CursorReader.remaining >>= f) P :=
  .of_run_eq (k := 0) (CursorReader.run_remaining h) hf

/-- A look whether the input ends, with what is read if it does and what is read if it goes on. -/
theorem At.ite_isAtEnd (h : c.At ts) {x y : CursorReader α}
    (hx : TokenReader.front ts = .endOfInput → c.ComesTo x P)
    (hy : TokenReader.front ts ≠ .endOfInput → c.ComesTo y P) :
    c.ComesTo (do if ← CursorReader.isAtEnd then x else y) P := by
  obtain ⟨t, ts, rfl⟩ := h.exists_cons
  refine .of_run_eq (k := 0)
    (CursorReader.run_bind_of_ok (CursorReader.run_current h.left_eq) _) ?_
  by_cases ht : t = .endOfInput
  · rw [decide_eq_true ht, if_pos rfl]
    exact hx ht
  · rw [decide_eq_false ht, if_neg Bool.false_ne_true]
    exact hy ht

theorem ComesTo.mono {x : CursorReader α} {Q : Except ParseError α → List Token → Prop}
    (h : c.ComesTo x P) (hPQ : ∀ r rest, P r rest → Q r rest) : c.ComesTo x Q := by
  obtain ⟨r, k, rest, hrun, hat, hP⟩ := h
  exact ⟨r, k, rest, hrun, hat, hPQ r rest hP⟩

/-- Two readers one after the other. -/
theorem ComesTo.bind {x : CursorReader α} {f : α → CursorReader β}
    {Q : Except ParseError β → List Token → Prop} (hc : c.At ts) (hx : c.ComesTo x P)
    (hok : ∀ a rest (c' : Cursor), c'.At rest → rest.length ≤ ts.length → P (.ok a) rest →
      c'.ComesTo (f a) Q)
    (herror : ∀ e rest, P (.error e) rest → Q (.error e) rest) : c.ComesTo (x >>= f) Q := by
  obtain ⟨r, k, rest, hrun, hat, hP⟩ := hx
  cases r with
  | error e => exact ⟨_, k, rest, CursorReader.run_bind_of_error hrun f, hat, herror e rest hP⟩
  | ok a => exact .of_run_eq hrun (hok a rest _ hat (hc.length_le hat) hP)

end Cursor

end RecordStore

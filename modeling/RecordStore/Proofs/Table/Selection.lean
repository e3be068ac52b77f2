import RecordStore.Proofs.Record.Header
import RecordStore.Proofs.Record.Layout
import RecordStore.Table.Query

/-!
# Which records a query is about

A target chooses among the entries of a file: the first with an id, or every one that satisfies some
conditions. Which records it selects can be said of the list of entries alone, and replacing the
selected records leaves all other bytes of the file where they were in the order of the file.

- `Choice`: which entries of a list are meant, as a list of marks, a list of entries, or a list in
  which they are replaced; the three agree (`chosen_eq_marks`, `replace_eq_marks`);
- `Stored`: a piece of a file with the entry of its record;
- `mark_every`, `mark_first_of_eq`, `mark_first_of_ne`: the marks that a choice gives to records;
- `select_eq`: the records that a target selects in a file are those of the entries it chooses;
- `splice_selectedAt`: replacing the selected records replaces just these pieces of the text.
-/

namespace RecordStore

/-! ## Choosing among entries -/

/-- Which entries of a list are meant: the first with an id, or every one for which all conditions
hold. -/
inductive Choice where
  | first (id : String)
  | every (conditions : List Condition)

namespace Choice

/-- For each entry of a list whether it is chosen. -/
def marks : Choice → List Entry → List Bool
  | _, [] => []
  | first id, e :: es =>
    if e.id = id then true :: es.map (fun _ => false) else false :: marks (first id) es
  | every conditions, e :: es =>
    conditions.all (·.holds e) :: marks (every conditions) es

/-- The chosen entries. -/
def chosen : Choice → List Entry → List Entry
  | first id, es => (es.find? (·.id = id)).toList
  | every conditions, es => es.filter fun e => conditions.all (·.holds e)

/-- The list with other entries in the place of each chosen one. -/
def replace (f : Entry → List Entry) : Choice → List Entry → List Entry
  | _, [] => []
  | first id, e :: es => if e.id = id then f e ++ es else e :: replace f (first id) es
  | every conditions, e :: es =>
    (if conditions.all (·.holds e) then f e else [e]) ++ replace f (every conditions) es

theorem length_marks (c : Choice) (es : List Entry) : (c.marks es).length = es.length := by
  induction es with
  | nil => cases c <;> rfl
  | cons e es ih =>
    cases c with
    | first id =>
      rw [marks]
      split
      · rw [List.length_cons, List.length_map, List.length_cons]
      · rw [List.length_cons, ih, List.length_cons]
    | every conditions => rw [marks, List.length_cons, ih, List.length_cons]

end Choice

/-- Entries with a mark each, of which only the marked ones are kept. -/
def marked {α : Type} (rows : List (α × Bool)) : List α := (rows.filter (·.2)).map (·.1)

theorem marked_zip_unmarked {α : Type} (as : List α) :
    marked (as.zip (as.map fun _ => false)) = [] := by
  induction as with
  | nil => rfl
  | cons a as ih => exact ih

theorem flatMap_zip_unmarked {α : Type} (f : α → List α) (as : List α) :
    (as.zip (as.map fun _ => false)).flatMap (fun (a, mark) => if mark then f a else [a]) = as := by
  induction as with
  | nil => rfl
  | cons a as ih => exact congrArg (a :: ·) ih

namespace Choice

/-- The chosen entries are the marked ones. -/
theorem chosen_eq_marks (c : Choice) (es : List Entry) :
    c.chosen es = marked (es.zip (c.marks es)) := by
  induction es with
  | nil => cases c <;> rfl
  | cons e es ih =>
    cases c with
    | first id =>
      by_cases he : e.id = id
      · have hfind : (first id).chosen (e :: es) = [e] := by simp [chosen, he]
        -- after the first entry with the id no other one is marked
        rw [hfind, marks, if_pos he]
        exact congrArg (e :: ·) (marked_zip_unmarked es).symm
      · have hfind : (first id).chosen (e :: es) = (first id).chosen es := by simp [chosen, he]
        rw [hfind, marks, if_neg he]
        exact ih
    | every conditions =>
      rw [chosen, List.filter_cons, marks]
      split
      · next he =>
        rw [he]
        exact congrArg (e :: ·) ih
      · next he =>
        rw [Bool.eq_false_iff.2 he]
        exact ih

/-- The replaced entries are the marked ones. -/
theorem replace_eq_marks (f : Entry → List Entry) (c : Choice) (es : List Entry) :
    c.replace f es =
      (es.zip (c.marks es)).flatMap fun (e, mark) => if mark then f e else [e] := by
  induction es with
  | nil => cases c <;> rfl
  | cons e es ih =>
    cases c with
    | first id =>
      rw [replace, marks]
      split
      · exact congrArg (f e ++ ·) (flatMap_zip_unmarked f es).symm
      · exact congrArg (e :: ·) ih
    | every conditions => exact congrArg (_ ++ ·) ih

end Choice

/-- The choice that a target makes among entries. An id must be that of an entry, and dependencies
must be conditions on the columns of the table. -/
def Table.choose (t : Table) (target : Target) (es : List Entry) : Except QueryError Choice :=
  match target with
  | .entry id => if es.any (·.id = id) then .ok (.first id) else .error (.entryNotFound t.name id)
  | .dependencies ds => (Table.conditions t.schema ds).map .every

/-! ## Choosing among records -/

/-- A record of a file with the blanks after it and the entry that it holds. -/
structure Stored (schema : Schema) extends Piece where
  entry : Entry
  holds : record.Holds schema entry

variable {schema : Schema}

/-- The selected records among those that stand one after the other from a byte position on. -/
def selectedAt (pos : Nat) : List (Stored schema × Bool) → List Selected
  | [] => []
  | (s, mark) :: rows =>
    (if mark then [⟨pos, pos + Text.utf8Length s.record.chars, s.entry⟩] else []) ++
      selectedAt (pos + Text.utf8Length s.chars) rows

/-- The text of records one after the other, with another text in the place of each marked one. -/
def replaceRecords (text : Entry → List Char) (rows : List (Stored schema × Bool)) : List Char :=
  rows.flatMap fun (s, mark) => (if mark then text s.entry else s.record.chars) ++ s.gap

/-- The records as they are found in a file. -/
def foundAt (pos : Nat) (rows : List (Stored schema)) : List (Except Corruption RawRecord) :=
  (Piece.found pos (rows.map Stored.toPiece)).map .ok

/-- The marks of a choice, each beside its record. -/
def Choice.mark (c : Choice) (rows : List (Stored schema)) : List (Stored schema × Bool) :=
  rows.zip (c.marks (rows.map Stored.entry))

theorem Choice.map_mark (c : Choice) (rows : List (Stored schema)) :
    (c.mark rows).map Prod.fst = rows := by
  rw [Choice.mark, List.map_fst_zip]
  rw [length_marks, List.length_map]

namespace Choice

theorem mark_every (conditions : List Condition) (rows : List (Stored schema)) :
    (every conditions).mark rows = rows.map fun s => (s, conditions.all (·.holds s.entry)) := by
  induction rows with
  | nil => rfl
  | cons s rows ih => exact congrArg ((s, conditions.all (·.holds s.entry)) :: ·) ih

theorem mark_first_of_eq {id : String} {s : Stored schema} (h : s.entry.id = id)
    (rows : List (Stored schema)) :
    (first id).mark (s :: rows) =
      (s, true) :: rows.zip ((rows.map Stored.entry).map fun _ => false) := by
  simp [mark, marks, h]

theorem mark_first_of_ne {id : String} {s : Stored schema} (h : s.entry.id ≠ id)
    (rows : List (Stored schema)) :
    (first id).mark (s :: rows) = (s, false) :: (first id).mark rows := by
  simp [mark, marks, h]

end Choice

theorem map_entry_selectedAt (pos : Nat) (rows : List (Stored schema × Bool)) :
    (selectedAt pos rows).map Selected.entry = (marked rows).map Stored.entry := by
  induction rows generalizing pos with
  | nil => rfl
  | cons row rows ih =>
    obtain ⟨s, mark⟩ := row
    cases mark with
    | false => exact ih _
    | true => exact congrArg (s.entry :: ·) (ih _)

theorem map_marked {α β : Type} (f : α → β) (rows : List (α × Bool)) :
    (marked rows).map f = marked (rows.map (Prod.map f id)) := by
  rw [marked, marked, List.filter_map, List.map_map, List.map_map]
  rfl

theorem zip_marks (c : Choice) (rows : List (Stored schema)) :
    (rows.map Stored.entry).zip (c.marks (rows.map Stored.entry)) =
      (c.mark rows).map (Prod.map Stored.entry id) := by
  rw [Choice.mark, ← List.zip_map_left]

/-- The marked records hold the chosen entries. -/
theorem marked_mark (c : Choice) (rows : List (Stored schema)) :
    (marked (c.mark rows)).map Stored.entry = c.chosen (rows.map Stored.entry) := by
  rw [map_marked, ← zip_marks, Choice.chosen_eq_marks]

theorem selectedAt_unmarked (pos : Nat) (rows : List (Stored schema)) :
    selectedAt pos (rows.zip ((rows.map Stored.entry).map fun _ => false)) = [] := by
  rw [← List.map_eq_nil_iff (f := Selected.entry), map_entry_selectedAt, List.map_map]
  exact congrArg (List.map Stored.entry) (marked_zip_unmarked rows)

/-- The records that satisfy all conditions are those of the entries that do. -/
theorem selectWhere_foundAt (conditions : List Condition) (pos : Nat)
    (rows : List (Stored schema)) :
    Table.selectWhere schema conditions (foundAt pos rows) =
      .ok (selectedAt pos ((Choice.every conditions).mark rows)) := by
  induction rows generalizing pos with
  | nil => rfl
  | cons s rows ih =>
    have hdecode : (s.record.found pos).decode schema = .ok s.entry :=
      Record.decode_found_eq_ok_iff.2 s.holds
    have hfound : foundAt pos (s :: rows) = .ok (s.record.found pos) ::
        foundAt (pos + Text.utf8Length s.chars) rows := rfl
    rw [hfound, Table.selectWhere, hdecode, ih, Choice.mark_every, Choice.mark_every, List.map_cons,
      selectedAt]
    simp only [bind, Except.bind]
    cases conditions.all (·.holds s.entry) <;> rfl

/-- The first record with an id is that of the first entry with it. -/
theorem selectId_foundAt (id : String) (pos : Nat) (rows : List (Stored schema)) :
    ∃ found, Table.selectId schema id (foundAt pos rows) = .ok found ∧
      found.toList = selectedAt pos ((Choice.first id).mark rows) ∧
      found.isSome = (rows.map Stored.entry).any (·.id = id) := by
  induction rows generalizing pos with
  | nil => exact ⟨none, rfl, rfl, rfl⟩
  | cons s rows ih =>
    have hdecode : (s.record.found pos).decode schema = .ok s.entry :=
      Record.decode_found_eq_ok_iff.2 s.holds
    have hid : (s.record.found pos).id = s.entry.id :=
      (RawRecord.decode_eq_ok_iff.1 hdecode).2.2.1
    have hfound : foundAt pos (s :: rows) = .ok (s.record.found pos) ::
        foundAt (pos + Text.utf8Length s.chars) rows := rfl
    -- the search stops at this record, or goes on behind it with the same mark for each of the rest
    by_cases heq : s.entry.id = id
    · have hmark := Choice.mark_first_of_eq heq rows
      refine ⟨some ⟨pos, pos + Text.utf8Length s.record.chars, s.entry⟩, ?_, ?_, ?_⟩
      · rw [hfound, Table.selectId, if_pos (hid.trans heq), hdecode]
        rfl
      · rw [hmark, selectedAt, selectedAt_unmarked]
        rfl
      · simp [heq]
    · have hmark := Choice.mark_first_of_ne heq rows
      obtain ⟨found, hselect, hlist, hsome⟩ := ih (pos + Text.utf8Length s.chars)
      refine ⟨found, ?_, ?_, ?_⟩
      · rw [hfound, Table.selectId, if_neg (fun h => heq (hid.symm.trans h)), hselect]
      · rw [hlist, hmark]
        rfl
      · rw [hsome, List.map_cons, List.any_cons, decide_eq_false heq, Bool.false_or]

/-! ## Readable files -/

/-- The parts of a file whose records can all be read: the header, blanks and the records. -/
structure Layout (schema : Schema) where
  header : Header
  head : List Char
  gap : List Char
  rows : List (Stored schema)
  decoded : ∀ tail, Header.decodeChars (head ++ tail) = .ok header
  length_head : Text.utf8Length head = header.length
  blank : ∀ c ∈ gap, Text.isAsciiBlank c = true

namespace Layout

/-- The text of the file. -/
def chars (l : Layout schema) : List Char := l.head ++ (l.gap ++ l.rows.flatMap (·.chars))

/-- The byte where the first record starts. -/
def start (l : Layout schema) : Nat := Text.utf8Length l.head + Text.utf8Length l.gap

/-- The entries of the file. -/
def entries (l : Layout schema) : List Entry := l.rows.map Stored.entry

theorem decode (l : Layout schema) : Header.decode (String.ofList l.chars) = .ok l.header := by
  rw [Header.decode, String.toList_ofList]
  exact l.decoded _

theorem recordsFrom (l : Layout schema) :
    recordsFrom (String.ofList l.chars) l.header.length = foundAt l.start l.rows := by
  have hpieces : l.rows.flatMap (·.chars) = (l.rows.map Stored.toPiece).flatMap Piece.chars := by
    rw [List.flatMap_map]
  rw [RecordStore.recordsFrom, String.toList_ofList, chars, ← l.length_head, dropBytes?_append,
    hpieces]
  exact records_pieces l.blank _ _

end Layout

/-- The records that a target selects in a file are those of the entries that it chooses. -/
theorem select_eq (t : Table) (l : Layout t.schema) (target : Target) :
    t.select (String.ofList l.chars) target =
      (t.choose target l.entries).map fun c => selectedAt l.start (c.mark l.rows) := by
  unfold Table.select
  rw [l.decode]
  simp only [Except.mapError, bind, Except.bind, l.recordsFrom]
  cases target with
  | entry id =>
    obtain ⟨found, hselect, hlist, hsome⟩ := selectId_foundAt id l.start l.rows
    simp only [hselect, Table.choose, Layout.entries, ← hsome]
    cases found with
    | none => rfl
    | some selected => exact congrArg Except.ok hlist
  | dependencies ds =>
    simp only [Table.choose]
    cases Table.conditions t.schema ds with
    | error e => rfl
    | ok conditions =>
      simp only [selectWhere_foundAt]
      rfl

/-! ## Replacing the selected records -/

/-- The change that puts a text in the place of a selected record. -/
def Selected.edit (text : Entry → List Char) (s : Selected) : Text.Edit :=
  { start := s.start, stop := s.stop, replacement := text s.entry }

/-- Only the selected records are replaced; what stands between them stays where it is. -/
theorem splice_selectedAt (text : Entry → List Char) (pos : Nat) (before : List Char)
    (rows : List (Stored schema × Bool)) :
    Text.splice pos (before ++ rows.flatMap fun row => row.1.chars)
        ((selectedAt (pos + Text.utf8Length before) rows).map (Selected.edit text)) =
      before ++ replaceRecords text rows := by
  induction rows generalizing pos before with
  | nil => rfl
  | cons row rows ih =>
    obtain ⟨s, mark⟩ := row
    cases mark with
    | false =>
      -- a record that stays joins the text before the next edit
      have hpos : pos + Text.utf8Length before + Text.utf8Length s.chars =
          pos + Text.utf8Length (before ++ s.chars) := by
        rw [Text.utf8Length_append, Nat.add_assoc]
      have hselected : selectedAt (pos + Text.utf8Length before) ((s, false) :: rows) =
          selectedAt (pos + Text.utf8Length (before ++ s.chars)) rows := hpos ▸ rfl
      rw [hselected, List.flatMap_cons, ← List.append_assoc, ih, List.append_assoc]
      rfl
    | true =>
      -- behind an edit only the blanks of its record stand before the next one
      have hselected : selectedAt (pos + Text.utf8Length before) ((s, true) :: rows) =
          ⟨pos + Text.utf8Length before,
            pos + Text.utf8Length before + Text.utf8Length s.record.chars, s.entry⟩ ::
          selectedAt (pos + Text.utf8Length before + Text.utf8Length s.record.chars +
            Text.utf8Length s.gap) rows := by
        rw [selectedAt, Piece.chars, Text.utf8Length_append, ← Nat.add_assoc]
        rfl
      have htext : before ++ ((s, true) :: rows).flatMap (fun row => row.1.chars) =
          before ++ (s.record.chars ++ (s.gap ++ rows.flatMap fun row => row.1.chars)) := by
        rw [List.flatMap_cons, Piece.chars, List.append_assoc]
      rw [hselected, htext, List.map_cons, Text.splice]
      simp only [Selected.edit, Nat.add_sub_cancel_left, Text.splitBytes_append]
      rw [ih]
      simp only [replaceRecords, List.flatMap_cons, List.append_assoc, if_true]

end RecordStore

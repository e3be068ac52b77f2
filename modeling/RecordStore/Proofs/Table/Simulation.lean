import RecordStore.EntryId
import RecordStore.Proofs.Table.Effect
import RecordStore.Proofs.Table.Splicing

/-!
# A table is a list of entries

Seen through its queries a table is a list of entries. The file is always the header and the records
of that list, so no query can tell the file from the list.

- `tableChars`: the file of a table that holds certain entries;
- `Table.queryRows`: a query on the list of entries, which `Table.Performs` says in other terms;
- `Table.Simulates`: the file is that of the list;
- `step_simulates`: one query gives the same answer on both and keeps them alike;
- `run_simulates`: so does every sequence of queries;
- `queries_eq_on_list`: a new table answers every sequence of queries as the empty list does.
-/

namespace RecordStore

/-! ## The list of entries -/

/-- The file of a table that holds these entries. -/
def tableChars (name : String) (schema : Schema) (rows : List Entry) : List Char :=
  Header.encodeChars name schema ++ rows.flatMap Entry.encodeChars

/-- A query on the list of entries: the answer and the list afterwards. A dropped table has no
list. -/
def Table.queryRows (t : Table) (c : Circumstances) (rows : List Entry) :
    Query → Except QueryError (EntrySet × Option (List Entry))
  | .add _ values => do
    let data ← newRow t.schema values
    let entry : Entry := { id := c.newId, data }
    return ([entry], some (rows ++ [entry]))
  | .get _ target => do
    let choice ← t.choose target rows
    return ((choice.chosen rows).map (Entry.timed c.elapsed), some rows)
  | .remove _ target => do
    let choice ← t.choose target rows
    return (choice.chosen rows, some (choice.replace (fun _ => []) rows))
  | .set _ target values => do
    let _ ← coerceRow t.schema values
    let choice ← t.choose target rows
    return ((choice.chosen rows).map fun e => (e.overwrite values).timed c.elapsed,
      some (choice.replace (fun e => [e.overwrite values]) rows))
  | .drop _ => .ok ([], none)

/-! ## Steps and runs -/

/-- A query on a handle and the files. A query that fails leaves the handle as it is. -/
def Table.stepFiles (s : Table × FileTree) (x : Circumstances × Query) :
    Except QueryError EntrySet × (Table × FileTree) :=
  match s.1.query x.1 x.2 s.2 with
  | .ok (answer, t) files => (.ok answer, t, files)
  | .error e files => (.error e, s.1, files)

/-- A query on the list of entries, or on a table that was dropped. A query that fails leaves the
list as it is. -/
def Table.stepRows (t : Table) (s : Option (List Entry)) (x : Circumstances × Query) :
    Except QueryError EntrySet × Option (List Entry) :=
  match s with
  | none => (.error (.tableDropped t.name), none)
  | some rows =>
    match t.queryRows x.1 rows x.2 with
    | .ok (answer, s) => (.ok answer, s)
    | .error e => (.error e, some rows)

/-- The answers to a sequence of queries, and the state after the last one. -/
def runSteps {σ α β : Type} (step : σ → α → β × σ) : σ → List α → List β × σ
  | s, [] => ([], s)
  | s, x :: xs =>
    let (answer, next) := step s x
    let (answers, last) := runSteps step next xs
    (answer :: answers, last)

/-! ## The invariant -/

/-- The handle and the files agree with a list of entries, or with there being none after a drop. -/
structure Table.Simulates (t : Table) (s : Table × FileTree) (rows : Option (List Entry)) :
    Prop where
  handle : s.1 = { t with dropped := rows.isNone }
  stored : ∀ entries, rows = some entries →
    (∀ e ∈ entries, e.IsStored t.schema) ∧ t.Stores s.2 (tableChars t.name t.schema entries)

/-- The record of an entry, with no blanks after it. -/
def Stored.ofEntry {schema : Schema} (e : { e : Entry // e.IsStored schema }) : Stored schema where
  record := e.1.record e.2.isRecordId
  gap := []
  blank := List.forall_mem_nil _
  entry := e.1
  holds := e.2.holds_record

/-- Where nothing but the records of entries stands, replacing records is replacing entries. -/
theorem replaceRecords_ofEntry {schema : Schema} (c : Choice)
    (rows : List { e : Entry // e.IsStored schema }) (f : Entry → List Entry) :
    replaceRecords (fun e => (f e).flatMap Entry.encodeChars) (c.mark (rows.map Stored.ofEntry)) =
      (c.replace f (rows.map Subtype.val)).flatMap Entry.encodeChars := by
  have hentries : rows.map Subtype.val = (rows.map Stored.ofEntry).map Stored.entry := by
    rw [List.map_map]
    rfl
  rw [hentries, Choice.replace_eq_marks, zip_marks, List.flatMap_map, List.flatMap_assoc,
    replaceRecords]
  refine List.flatMap_congr ?_
  intro x hx
  obtain ⟨e, -, he⟩ := List.mem_map.1 (List.of_mem_zip hx).1
  obtain ⟨s, mark⟩ := x
  cases he
  cases mark <;> simp [Entry.chars_record]

/-- The file of a list of entries is readable, and holds them. -/
theorem exists_layout_tableChars {name : String} {schema : Schema} {rows : List Entry}
    (hname : Name.check name = .ok ()) (hschema : schema.check = .ok ())
    (hrows : ∀ e ∈ rows, e.IsStored schema) :
    ∃ l : Layout schema, l.chars = tableChars name schema rows ∧ l.entries = rows ∧
      ∀ (c : Choice) (f : Entry → List Entry),
        l.replaced c (fun e => (f e).flatMap Entry.encodeChars) =
          tableChars name schema (c.replace f rows) := by
  -- the entries carry the proof that they are stored, since each has to become a record
  lift rows to List { e : Entry // e.IsStored schema } using hrows
  refine ⟨⟨_, Header.encodeChars name schema, [], rows.map Stored.ofEntry,
    Header.decodeChars_encodeChars hname hschema, rfl, List.forall_mem_nil _⟩, ?_, ?_, ?_⟩
  · rw [Layout.chars, tableChars, List.flatMap_map, List.flatMap_map]
    simp [Stored.ofEntry, Piece.chars, Entry.chars_record]
  · rw [Layout.entries, List.map_map]
    rfl
  · intro c f
    rw [Layout.replaced, tableChars, List.nil_append, replaceRecords_ofEntry]

/-- A record that is added at the end of the file is that of one more entry. -/
theorem tableChars_concat (name : String) (schema : Schema) (rows : List Entry) (e : Entry) :
    tableChars name schema (rows ++ [e]) = tableChars name schema rows ++ e.encodeChars := by
  rw [tableChars, List.flatMap_append, ← List.append_assoc, List.flatMap_singleton]
  rfl

/-- Every entry of a list in which some were replaced was there before or replaces one that was. -/
theorem Choice.mem_replace {f : Entry → List Entry} {c : Choice} {es : List Entry} {e : Entry}
    (h : e ∈ c.replace f es) : ∃ e' ∈ es, e = e' ∨ e ∈ f e' := by
  rw [Choice.replace_eq_marks] at h
  obtain ⟨⟨e', mark⟩, hmem, he⟩ := List.mem_flatMap.1 h
  refine ⟨e', (List.of_mem_zip hmem).1, ?_⟩
  cases mark with
  | false => exact .inl (List.mem_singleton.1 he)
  | true => exact .inr he

/-- Hexadecimal digits may stand in an id. -/
theorem isIdChar_of_mem_hex {n : Nat} {c : Char} (h : c ∈ Text.hex n) : isIdChar c = true := by
  have hdigit : ∀ k < 16, isIdChar (Nat.digitChar k) = true := by decide
  -- the last digit is written after those of the quotient
  induction n using Nat.strongRecOn with
  | ind n ih =>
    rw [Text.hex, Nat.toDigits_eq_if (by decide)] at h
    split at h
    · next hlt =>
      rw [List.mem_singleton.1 h]
      exact hdigit n hlt
    · rcases List.mem_append.1 h with h | h
      · exact ih (n / 16) (by omega) h
      · rw [List.mem_singleton.1 h]
        exact hdigit (n % 16) (Nat.mod_lt n (by decide))

/-- The ids that are drawn for new entries are found again. -/
theorem isRecordId_ofWord (word : UInt64) : IsRecordId (EntryId.ofWord word) := by
  have hne : Text.hex word.toNat ≠ [] := Nat.toDigits_ne_nil
  rw [IsRecordId, EntryId.ofWord, String.toList_ofList]
  refine ⟨by simp [hne], List.forall_mem_append.2 ⟨?_, fun c => isIdChar_of_mem_hex⟩⟩
  intro c hc
  rw [List.eq_of_mem_replicate hc]
  decide

/-! ## One query -/

namespace Table

/-- A query on the files ends as it does on the list: with the same answer and the file of the new
list, or with the same error and the files as they were. -/
def Agrees (t : Table) (files : FileTree)
    (expected : Except QueryError (EntrySet × Option (List Entry)))
    (ended : EStateM.Result QueryError FileTree (EntrySet × Table)) : Prop :=
  match expected with
  | .error e => ended = .error e files
  | .ok (answer, rows) =>
    ∃ t' files', ended = .ok (answer, t') files' ∧ t.Simulates (t', files') rows

variable {t : Table} {files : FileTree} {rows : List Entry}

theorem simulates_some (hlive : t.dropped = false) (hrows : ∀ e ∈ rows, e.IsStored t.schema)
    (hstores : t.Stores files (tableChars t.name t.schema rows)) :
    t.Simulates (t, files) (some rows) := by
  refine ⟨?_, ?_⟩
  · show t = { t with dropped := false }
    rw [← hlive]
  · rintro _ ⟨⟩
    exact ⟨hrows, hstores⟩

variable (hname : Name.check t.name = .ok ()) (hschema : t.schema.check = .ok ())
  (hlive : t.dropped = false) (hrows : ∀ e ∈ rows, e.IsStored t.schema)
  (hstores : t.Stores files (tableChars t.name t.schema rows)) (c : Circumstances)
include hname hschema hlive hrows hstores

theorem get_agrees (table : String) (target : Target) :
    t.Agrees files (t.queryRows c rows (.get table target))
      (t.run c (.get table target) files) := by
  obtain ⟨l, hchars, rfl, -⟩ := exists_layout_tableChars hname hschema hrows
  have hread := hstores.readText
  rw [← hchars] at hread
  have hget := get_eq l hread c.elapsed target
  cases hchoose : t.choose target l.entries with
  | error e =>
    rw [hchoose] at hget
    simp only [Agrees, queryRows, run, bind, Except.bind, EStateM.bind, hchoose, hget]
  | ok choice =>
    rw [hchoose] at hget
    simp only [Agrees, queryRows, run, bind, Except.bind, EStateM.bind, hchoose, hget]
    exact ⟨t, files, rfl, simulates_some hlive hrows hstores⟩

theorem remove_agrees (table : String) (target : Target) :
    t.Agrees files (t.queryRows c rows (.remove table target))
      (t.run c (.remove table target) files) := by
  obtain ⟨l, hchars, rfl, hreplaced⟩ := exists_layout_tableChars hname hschema hrows
  rw [← hchars] at hstores
  cases hchoose : t.choose target l.entries with
  | error e =>
    have hremove := remove_eq l hstores.readText target
    rw [hchoose] at hremove
    simp only [Agrees, queryRows, run, bind, Except.bind, EStateM.bind, hchoose, hremove]
  | ok choice =>
    obtain ⟨files', hremove, hstores'⟩ := hstores.remove hchoose
    simp only [Agrees, queryRows, run, bind, Except.bind, EStateM.bind, hchoose, hremove]
    refine ⟨t, files', rfl, simulates_some hlive ?_ ?_⟩
    · intro e he
      obtain ⟨e', he', rfl | he⟩ := Choice.mem_replace he
      · exact hrows e he'
      · cases he
    · rw [← hreplaced]
      exact hstores'

theorem set_agrees (table : String) (target : Target) (values : List Literal) :
    t.Agrees files (t.queryRows c rows (.set table target values))
      (t.run c (.set table target values) files) := by
  obtain ⟨l, hchars, rfl, hreplaced⟩ := exists_layout_tableChars hname hschema hrows
  rw [← hchars] at hstores
  have hset := set_eq l hstores.readText c.elapsed target values
  cases hrow : coerceRow t.schema values with
  | error e =>
    rw [hrow] at hset
    simp only [Agrees, queryRows, run, bind, Except.bind, EStateM.bind, hrow, hset]
  | ok row =>
    cases hchoose : t.choose target l.entries with
    | error e =>
      rw [hrow, hchoose] at hset
      simp only [Agrees, queryRows, run, bind, Except.bind, EStateM.bind, hrow, hchoose, hset]
    | ok choice =>
      obtain ⟨files', hset, hstores'⟩ := hstores.set c.elapsed hrow hchoose
      simp only [Agrees, queryRows, run, bind, Except.bind, EStateM.bind, hrow, hchoose, hset]
      refine ⟨t, files', rfl, simulates_some hlive ?_ ?_⟩
      · intro e he
        obtain ⟨e', he', rfl | he⟩ := Choice.mem_replace he
        · exact hrows e he'
        · rw [List.mem_singleton.1 he]
          exact (hrows e' he').overwrite (coerceRow_eq_ok_iff.1 hrow).1
      · rw [← hreplaced]
        simpa only [List.flatMap_singleton] using hstores'

omit hname hschema in
theorem add_agrees (hid : IsRecordId c.newId) (table : String) (values : List Literal) :
    t.Agrees files (t.queryRows c rows (.add table values))
      (t.run c (.add table values) files) := by
  cases hrow : newRow t.schema values with
  | error e =>
    simp only [Agrees, queryRows, run, add, bind, Except.bind, EStateM.bind, hrow]
    rfl
  | ok data =>
    let entry : Entry := { id := c.newId, data }
    obtain ⟨files', happend, hstores'⟩ := hstores.append entry.encodeChars
    have hadd : t.add c.newId values files = .ok [entry] files' := add_eq hrow happend
    simp only [Agrees, queryRows, run, bind, Except.bind, EStateM.bind, hrow, hadd]
    refine ⟨t, files', rfl, simulates_some hlive ?_ ?_⟩
    · intro e he
      rcases List.mem_append.1 he with he | he
      · exact hrows e he
      · rw [List.mem_singleton.1 he]
        exact ⟨fits_of_newRow hrow c.newId, hid, rfl⟩
    · rw [tableChars_concat]
      exact hstores'

omit hname hschema hlive hrows in
theorem drop_agrees (table : String) :
    t.Agrees files (t.queryRows c rows (.drop table)) (t.run c (.drop table) files) := by
  obtain ⟨place, hleads, hfind⟩ := hstores.file
  have hremove := FileTree.HasFile.remove ⟨hleads, _, hfind⟩
  simp only [Agrees, queryRows, run, deleteFile, Disk.change, bind, EStateM.bind, hremove]
  refine ⟨{ t with dropped := true }, files.erase place, rfl, rfl, fun _ h => by cases h⟩

/-- A query on a table that was not dropped ends as it does on the list. -/
theorem query_agrees (hid : IsRecordId c.newId) (q : Query) :
    t.Agrees files (t.queryRows c rows q) (t.query c q files) := by
  rw [query_of_live hlive]
  cases q with
  | add table values => exact add_agrees hlive hrows hstores c hid table values
  | get table target => exact get_agrees hname hschema hlive hrows hstores c table target
  | remove table target => exact remove_agrees hname hschema hlive hrows hstores c table target
  | set table target values =>
    exact set_agrees hname hschema hlive hrows hstores c table target values
  | drop table => exact drop_agrees hstores c table

end Table

/-! ## Every sequence of queries -/

namespace Table

variable {t : Table}

/-- One query keeps the files and the list alike, and gives the same answer on both. -/
theorem step_simulates (hname : Name.check t.name = .ok ()) (hschema : t.schema.check = .ok ())
    (hlive : t.dropped = false) {s : Table × FileTree} {rows : Option (List Entry)}
    (h : t.Simulates s rows) {x : Circumstances × Query} (hid : IsRecordId x.1.newId) :
    (stepFiles s x).1 = (t.stepRows rows x).1 ∧
      t.Simulates (stepFiles s x).2 (t.stepRows rows x).2 := by
  obtain ⟨handle, files⟩ := s
  have hhandle : handle = { t with dropped := rows.isNone } := h.handle
  cases rows with
  | none =>
    subst hhandle
    exact ⟨rfl, h⟩
  | some rows =>
    -- the handle is the table itself as long as there is a list
    have ht : handle = t := by
      rw [hhandle, Option.isNone_some, ← hlive]
    subst ht
    obtain ⟨hrows, hstores⟩ := h.stored rows rfl
    have hagrees := query_agrees hname hschema hlive hrows hstores x.1 hid x.2
    unfold stepFiles stepRows
    dsimp only
    cases hexpected : handle.queryRows x.1 rows x.2 with
    | error e =>
      rw [hexpected] at hagrees
      simp only [Agrees] at hagrees
      rw [hagrees]
      exact ⟨rfl, h⟩
    | ok expected =>
      obtain ⟨answer, rows'⟩ := expected
      rw [hexpected] at hagrees
      obtain ⟨t', files', hended, hsimulates⟩ := hagrees
      rw [hended]
      exact ⟨rfl, hsimulates⟩

/-- Every sequence of queries keeps the files and the list alike, and gives the same answers. -/
theorem run_simulates (hname : Name.check t.name = .ok ()) (hschema : t.schema.check = .ok ())
    (hlive : t.dropped = false) {s : Table × FileTree} {rows : Option (List Entry)}
    (h : t.Simulates s rows) {xs : List (Circumstances × Query)}
    (hids : ∀ x ∈ xs, IsRecordId x.1.newId) :
    (runSteps stepFiles s xs).1 = (runSteps t.stepRows rows xs).1 ∧
      t.Simulates (runSteps stepFiles s xs).2 (runSteps t.stepRows rows xs).2 := by
  induction xs generalizing s rows with
  | nil => exact ⟨rfl, h⟩
  | cons x xs ih =>
    obtain ⟨hid, hids⟩ := List.forall_mem_cons.1 hids
    obtain ⟨hanswer, hnext⟩ := step_simulates hname hschema hlive h hid
    obtain ⟨hanswers, hlast⟩ := ih hnext hids
    refine ⟨?_, hlast⟩
    simp only [runSteps, hanswer, hanswers]

/-! ## New tables -/

/-- The file system lets the file of a table be opened, and the temporary file beside it be
written. -/
def Usable (t : Table) (files : FileTree) : Prop :=
  files.isFile t.path = true ∧ ∃ files', files.overwrite t.temporaryPath .empty = .ok files'

/-- Making a table checks its name and its columns, and makes a file that holds the header. -/
theorem exists_of_create {config : StoreConfig} {name : String} {schema : Schema}
    {files files' : FileTree} (h : create config name schema files = .ok t files') :
    Name.check name = .ok () ∧ schema.check = .ok () ∧
      t = { name, schema, path := config.tablePath name } ∧
      ∃ middle : FileTree,
        middle.create t.path (Header.encode name schema).toUTF8 = .ok files' := by
  have heffect := create_effect config name schema files
  rw [h] at heffect
  obtain ⟨hname, hschema, hhandle, middle, place, ending, -, hcreated⟩ := heffect
  exact ⟨hname, hschema, hhandle, middle,
    FileTree.create_eq_ok_iff.2 ⟨place, ending, hcreated⟩⟩

/-- A file that was made holds what it was made with, if it can be opened. -/
theorem stores_of_create {middle files : FileTree} {text : List Char}
    (h : middle.create t.path (String.ofList text).toUTF8 = .ok files) (husable : t.Usable files) :
    t.Stores files text := by
  obtain ⟨hfile, u, hover⟩ := husable
  obtain ⟨temporary, htemporary, -⟩ := FileTree.overwrite_eq_ok_iff.1 hover
  obtain ⟨own, hleads, -⟩ := FileTree.isFile_iff.1 hfile
  obtain ⟨place, ending, hlocate, -, hlookUp, rfl⟩ := FileTree.create_eq_ok_iff.1 h
  have hnone := (FileTree.lookUp_eq_ok_iff.1 hlookUp).2
  have hkeeps : middle.KeepsFolders (middle.put place (.file (String.ofList text).toUTF8)) :=
    FileTree.keepsFolders_put (by simp [hnone]) _
  have hne : place ≠ [] := by
    rintro rfl
    cases hnone
  -- what was made and what is opened are at the same place, for the folders are as they were
  have heq := (FileTree.locate_of_keepsFolders hkeeps hlocate).symm.trans hleads.located
  cases heq
  exact ⟨⟨_, hleads, FileTree.find?_put_self _ _ hne⟩, temporary, htemporary⟩

end Table

/-- The file of a table that holds these entries, as a string. -/
def tableText (name : String) (schema : Schema) (rows : List Entry) : String :=
  Header.encode name schema ++ String.join (rows.map Entry.encode)

theorem ofList_tableChars (name : String) (schema : Schema) (rows : List Entry) :
    String.ofList (tableChars name schema rows) = tableText name schema rows := by
  have hjoin : String.join (rows.map Entry.encode) =
      String.ofList (rows.flatMap Entry.encodeChars) := by
    refine String.toList_inj.1 ?_
    rw [String.toList_join, List.flatMap_map, String.toList_ofList]
    simp only [Entry.encode, String.toList_ofList]
  rw [tableChars, tableText, String.ofList_append, hjoin]
  rfl

/-- Every sequence of queries on a new table, of any kind and about anything, gives the answers that
it gives on a list of entries, which is empty at first. As long as the table is not dropped, the
text of its file is the header and the records of the entries on the list. -/
theorem queries_eq_on_list {config : StoreConfig} {name : String} {schema : Schema} {t : Table}
    {files files' : FileTree} (hcreate : Table.create config name schema files = .ok t files')
    (husable : t.Usable files') {xs : List (Circumstances × Query)}
    (hids : ∀ x ∈ xs, IsRecordId x.1.newId) :
    (runSteps Table.stepFiles (t, files') xs).1 = (runSteps t.stepRows (some []) xs).1 ∧
      ∀ rows, (runSteps t.stepRows (some []) xs).2 = some rows →
        (runSteps Table.stepFiles (t, files') xs).2.1 = t ∧
          (runSteps Table.stepFiles (t, files') xs).2.2.readText t.path =
            .ok (tableText name schema rows) := by
  obtain ⟨hname, hschema, rfl, middle, hmade⟩ := Table.exists_of_create hcreate
  have hempty : Header.encode name schema = String.ofList (tableChars name schema []) := by
    rw [tableChars, List.flatMap_nil, List.append_nil]
    rfl
  rw [hempty] at hmade
  have hstores := Table.stores_of_create hmade husable
  obtain ⟨hanswers, hlast⟩ := Table.run_simulates hname hschema rfl
    (Table.simulates_some rfl (List.forall_mem_nil _) hstores) hids
  refine ⟨hanswers, fun rows hrows => ⟨?_, ?_⟩⟩
  · rw [hlast.handle, hrows]
    rfl
  · rw [← ofList_tableChars]
    exact (hlast.stored rows hrows).2.readText

/-- Entries are added to a new table, one is changed and another one removed, and a query fails that
gives too few values. The file holds the records of the two entries that are left. -/
theorem queries_eq_on_list_two_records :
    ∃ (t : Table) (files : FileTree) (a b b' c : Entry) (xs : List (Circumstances × Query)),
      a = { id := "0000000000000005", data := [("A", .str "x"), ("N", .int 1)] } ∧
      b = { id := "0000000000000006", data := [("A", .str "y,z"), ("N", .int (-2))] } ∧
      b' = { id := "0000000000000006", data := [("A", .str "\x7b"), ("N", .int (-2))] } ∧
      c = { id := "0000000000000007", data := [("A", .str "*"), ("N", .int 7)] } ∧
      xs = [(⟨EntryId.ofWord 5, 0⟩, .add "T" [.bare "x", .bare "1"]),
        (⟨EntryId.ofWord 6, 0⟩, .add "T" [.ofQuoted "y,z", .bare "-2"]),
        (⟨EntryId.ofWord 0, 0⟩, .add "T" [.bare "x"]),
        (⟨EntryId.ofWord 0, 3⟩, .set "T" (.dependencies [⟨"A", .contains, .bare ","⟩])
          [.ofQuoted "\x7b", .bare "*"]),
        (⟨EntryId.ofWord 0, 0⟩, .remove "T" (.entry "0000000000000005")),
        (⟨EntryId.ofWord 7, 0⟩, .add "T" [.ofQuoted "*", .bare "07"]),
        (⟨EntryId.ofWord 0, 4⟩, .get "T" .all)] ∧
      Table.create { dataDir := "" } "T" ⟨[⟨"A", .string⟩, ⟨"N", .integer⟩]⟩ ⟨[], []⟩ =
        .ok t files ∧
      (runSteps Table.stepFiles (t, files) xs).1 =
        [.ok [a], .ok [b], .error (.valueCountMismatch 2 1), .ok [b'.timed 3], .ok [a], .ok [c],
          .ok [b'.timed 4, c.timed 4]] ∧
      (runSteps Table.stepFiles (t, files) xs).2.2.readText t.path = .ok
        "[T,2:A,0:N]\x7b0000000000000006;S:\\\x7b,I:-2\x7d\x7b0000000000000007;S:*,I:7\x7d" := by
  let schema : Schema := ⟨[⟨"A", .string⟩, ⟨"N", .integer⟩]⟩
  let t : Table := { name := "T", schema, path := "T.tbl" }
  let files : FileTree := ⟨[(["T.tbl"], .file "[T,2:A,0:N]".toUTF8)], []⟩
  let a : Entry := { id := "0000000000000005", data := [("A", .str "x"), ("N", .int 1)] }
  let b : Entry := { id := "0000000000000006", data := [("A", .str "y,z"), ("N", .int (-2))] }
  let b' : Entry := { id := "0000000000000006", data := [("A", .str "\x7b"), ("N", .int (-2))] }
  let c : Entry := { id := "0000000000000007", data := [("A", .str "*"), ("N", .int 7)] }
  let xs : List (Circumstances × Query) :=
    [(⟨EntryId.ofWord 5, 0⟩, .add "T" [.bare "x", .bare "1"]),
      (⟨EntryId.ofWord 6, 0⟩, .add "T" [.ofQuoted "y,z", .bare "-2"]),
      (⟨EntryId.ofWord 0, 0⟩, .add "T" [.bare "x"]),
      (⟨EntryId.ofWord 0, 3⟩, .set "T" (.dependencies [⟨"A", .contains, .bare ","⟩])
        [.ofQuoted "\x7b", .bare "*"]),
      (⟨EntryId.ofWord 0, 0⟩, .remove "T" (.entry "0000000000000005")),
      (⟨EntryId.ofWord 7, 0⟩, .add "T" [.ofQuoted "*", .bare "07"]),
      (⟨EntryId.ofWord 0, 4⟩, .get "T" .all)]
  have hcreate : Table.create { dataDir := "" } "T" schema ⟨[], []⟩ = .ok t files := rfl
  have htemporary : files.LeadsTo t.temporaryPath [".T.tbl.tmp"] :=
    ⟨by decide, by decide, by decide⟩
  have husable : t.Usable files :=
    ⟨by decide, _, FileTree.overwrite_eq_ok_iff.2 ⟨_, htemporary, rfl⟩⟩
  have hids : ∀ x ∈ xs, IsRecordId x.1.newId := by
    simp only [xs, List.forall_mem_cons, isRecordId_ofWord, true_and]
    exact List.forall_mem_nil _
  have hlist : runSteps t.stepRows (some []) xs =
      ([.ok [a], .ok [b], .error (.valueCountMismatch 2 1), .ok [b'.timed 3], .ok [a], .ok [c],
        .ok [b'.timed 4, c.timed 4]], some [b', c]) := by
    decide
  have htext : tableText "T" schema [b', c] =
      "[T,2:A,0:N]\x7b0000000000000006;S:\\\x7b,I:-2\x7d\x7b0000000000000007;S:*,I:7\x7d" := by
    decide
  obtain ⟨hanswers, hfile⟩ := queries_eq_on_list hcreate husable hids
  rw [hlist] at hanswers hfile
  obtain ⟨-, hfile⟩ := hfile _ rfl
  rw [htext] at hfile
  exact ⟨t, files, a, b, b', c, xs, rfl, rfl, rfl, rfl, rfl, hcreate, hanswers, hfile⟩

end RecordStore

import RecordStore.Proofs.Store.Answers
import RecordStore.Proofs.Table.Simulation

/-!
# Every entry fits its schema

Entries come into an answer in four ways: they are decoded from records, made from the literals of a
query, put together from both, or removed. In each of them the columns are those of the table, and
so are the types of the values, whatever stands in the file. The records that a query writes are
those of the entries that it answers, and a reader that comes to one of them decodes that entry.

- `Entry.IsReadBack`: what a reader makes of the record of an entry, wherever that stands;
- `Entry.Takes`: which values of an entry are those of literals;
- `exists_of_add`, `exists_of_set`: what the two queries that write records answer and write;
- `query_isTyped`: what every query answers and writes, and what every batch answers.
-/

namespace RecordStore

/-! ## Values that literals give -/

/-- The value is the one that the literal stands for in a column of its type, and it is finite if it
is a decimal. -/
def Literal.Gives (l : Literal) (v : Value) : Prop :=
  l.coerce? v.storageType = some v ∧ ∀ x, v = .dec x → x.isFinite = true

/-- A literal stands for finite decimals only. -/
theorem gives_of_coerce? {l : Literal} {type : StorageType} {v : Value}
    (h : l.coerce? type = some v) : l.Gives v := by
  refine ⟨by rw [storageType_of_coerce? h, h], ?_⟩
  rintro x rfl
  unfold Literal.coerce? at h
  split at h
  · cases h
  · cases type with
    | integer =>
      obtain ⟨n, -, hn⟩ := Option.map_eq_some_iff.1 h
      cases hn
    | decimal =>
      obtain ⟨y, -, hy⟩ := Option.bind_eq_some_iff.1 h
      split at hy
      · next hfinite =>
        cases hy
        exact hfinite
      · cases hy
    | string => cases h

namespace Entry

/-- Each literal but the wildcards gives the value in its column. -/
def Takes (e : Entry) (values : List Literal) : Prop :=
  List.Forall₂ (fun (l : Literal) v => l.isWildcard = false → l.Gives v) values e.values

/-- A reader that comes to the record of the entry, wherever it stands in a text, finds it from its
first byte to its last and decodes it to this entry. -/
def IsReadBack (e : Entry) (schema : Schema) : Prop :=
  ∀ before after : List Char, ∃ raw others,
    recordsFrom (String.ofList (before ++ (e.encodeChars ++ after))) (Text.utf8Length before) =
      .ok raw :: others ∧
    raw.start = Text.utf8Length before ∧ raw.stop = Text.utf8Length (before ++ e.encodeChars) ∧
    raw.decode schema = .ok e

theorem IsStored.isReadBack {schema : Schema} {e : Entry} (h : e.IsStored schema) :
    e.IsReadBack schema := by
  intro before after
  have hfound : recordsFrom (String.ofList (before ++ (e.encodeChars ++ after)))
      (Text.utf8Length before) = records (Text.utf8Length before)
        ((e.record h.isRecordId).chars ++ after) := by
    rw [recordsFrom, String.toList_ofList, dropBytes?_append]
    rfl
  rw [records_record_append] at hfound
  refine ⟨_, _, hfound, rfl, ?_, Record.decode_found_eq_ok_iff.2 h.holds_record⟩
  rw [Text.utf8Length_append]
  rfl

/-- The values that are set are those of the literals. -/
theorem Fits.takes_overwrite {schema : Schema} {e : Entry} (h : e.Fits schema)
    {values : List Literal} (hsuits : List.Forall₂ Literal.Suits values schema.columns) :
    (e.overwrite values).Takes values := by
  have hcolumns : schema.columns = e.data.map fun p => ⟨p.1, p.2.storageType⟩ := h.symm
  rw [hcolumns, List.forall₂_map_right_iff] at hsuits
  rw [Takes, Entry.values, Entry.overwrite, List.map_map]
  generalize e.data = data at hsuits
  induction hsuits with
  | nil => exact .nil
  | @cons l p values data hl _ ih =>
    refine .cons (fun hwild => ?_) ih
    rcases hl with hwild' | ⟨v, hv⟩
    · rw [hwild] at hwild'
      cases hwild'
    · simp only [Function.comp, hwild, Bool.false_eq_true, if_false, hv, Option.getD_some]
      exact gives_of_coerce? hv

end Entry

/-- A new row takes every literal, and none of them is a wildcard. -/
theorem takes_of_newRow {schema : Schema} {values : List Literal} {data : List (String × Value)}
    (h : Table.newRow schema values = .ok data) (id : String) :
    (∀ l ∈ values, l.isWildcard = false) ∧ Entry.Takes { id, data } values := by
  obtain ⟨row, hrow, hdata⟩ := bind_eq_ok_iff.1 h
  obtain ⟨hlength, hvalues⟩ := coerceRow_eq_ok_iff.1 hrow
  show _ ∧ List.Forall₂ _ values (data.map Prod.snd)
  clear h hrow
  generalize schema.columns = columns at *
  induction values generalizing row data columns with
  | nil =>
    rw [List.length_nil, eq_comm, List.length_eq_zero_iff] at hlength
    subst hlength
    cases hvalues
    cases hdata
    exact ⟨List.forall_mem_nil _, .nil⟩
  | cons l values ih =>
    obtain ⟨column, columns, rfl⟩ := List.exists_cons_of_length_eq_add_one hlength.symm
    obtain ⟨value, row, rfl, hvalue, hrow⟩ := mapM_cons_eq_ok_iff.1 hvalues
    obtain ⟨p, data, rfl, hp, hdata⟩ := mapM_cons_eq_ok_iff.1 hdata
    obtain ⟨hwild, htakes⟩ := ih row columns hdata (Nat.succ.inj hlength) hrow
    rcases coerceColumn_eq_ok_iff.1 hvalue with ⟨-, rfl⟩ | ⟨hl, v, hv, rfl⟩
    · cases hp
    · cases hp
      exact ⟨List.forall_mem_cons.2 ⟨hl, hwild⟩, .cons (fun _ => gives_of_coerce? hv) htakes⟩

/-! ## Queries that write records -/

namespace Table

variable {t : Table} {files files' : FileTree} {answer : EntrySet} {values : List Literal}

/-- Adding answers one entry, and its record stands behind the bytes of the file. -/
theorem exists_of_add {newId : String} (h : t.add newId values files = .ok answer files') :
    ∃ data content, newRow t.schema values = .ok data ∧ answer = [{ id := newId, data }] ∧
      files.read t.path = .ok content ∧
      files'.read t.path = .ok (content ++ (Entry.mk newId data none).encode.toUTF8) := by
  obtain ⟨data, files₁, hnew, hrest⟩ := bind_run_eq_ok_iff.1 h
  obtain ⟨hrow, rfl⟩ := Disk.ofExcept_eq_ok_iff.1 hnew
  obtain ⟨⟨⟩, files₂, hchange, hreturn⟩ := bind_run_eq_ok_iff.1 hrest
  cases hreturn
  have happend := (Disk.change_eq_ok_iff _ _).1 hchange
  obtain ⟨place, content, hplace, hfind, rfl⟩ := FileTree.append_eq_ok_iff.1 happend
  refine ⟨data, content, hrow, rfl, FileTree.read_eq_ok_iff.2 ⟨place, hplace, hfind⟩,
    FileTree.read_eq_ok_iff.2 ⟨place, hplace.put hplace _, ?_⟩⟩
  rw [FileTree.find?_put_self _ _ hplace.ne_nil]

/-- Setting values answers the selected entries with the new values, and puts their records in the
place of the selected ones. -/
theorem exists_of_set {elapsed : UInt64} {target : Target}
    (h : t.set elapsed target values files = .ok answer files') :
    ∃ row text selected, coerceRow t.schema values = .ok row ∧
      files.readText t.path = .ok text ∧ t.select text target = .ok selected ∧
      answer = selected.map (fun s => (s.entry.overwrite values).timed elapsed) ∧
      files'.readText t.path = .ok (String.ofList (Text.splice 0 text.toList
        (selected.map (Selected.edit fun e => (e.overwrite values).encodeChars)))) := by
  obtain ⟨row, files₁, hcoerce, hreading⟩ := bind_run_eq_ok_iff.1 h
  obtain ⟨hrow, rfl⟩ := Disk.ofExcept_eq_ok_iff.1 hcoerce
  obtain ⟨text, files₂, hread, hselecting⟩ := bind_run_eq_ok_iff.1 hreading
  obtain ⟨htext, rfl⟩ := Disk.ask_eq_ok_iff.1 hread
  obtain ⟨selected, files₃, hselect, hwriting⟩ := bind_run_eq_ok_iff.1 hselecting
  obtain ⟨hselected, rfl⟩ := Disk.ofExcept_eq_ok_iff.1 hselect
  refine ⟨row, text, selected, hrow, htext, hselected, ?_⟩
  split at hwriting
  · next hnil =>
    cases hwriting
    rw [List.isEmpty_iff.1 hnil]
    exact ⟨rfl, by rw [htext]; simp [Text.splice]⟩
  · -- the selected entries fit the schema, so their values are those that the literals give
    have hupdated : selected.map (fun s => { s with entry := replaceValues row s.entry }) =
        selected.map (fun s => { s with entry := s.entry.overwrite values }) :=
      List.map_congr_left fun s hs => by
        rw [replaceValues_eq_overwrite hrow (isStored_of_select hselected s hs).fits]
    rw [hupdated] at hwriting
    obtain ⟨⟨⟩, files₄, hreplace, hreturn⟩ := bind_run_eq_ok_iff.1 hwriting
    cases hreturn
    refine ⟨by rw [List.map_map]; rfl, ?_⟩
    rw [(stores_of_replaceContent hreplace).readText, List.map_map]
    rfl

end Table

/-! ## Answers -/

/-- The literals of a query that writes records. -/
def Query.values? : Query → Option (List Literal)
  | add _ values => some values
  | set _ _ values => some values
  | remove _ _ => none
  | get _ _ => none
  | drop _ => none

/-- An answered entry fits the schema. If the query writes records, the entry has the values of its
literals, and the record that is written for it is read back under the schema. -/
structure Entry.IsTyped (schema : Schema) (q : Query) (e : Entry) : Prop where
  fits : e.Fits schema
  takes : ∀ values, q.values? = some values → e.Takes values
  isReadBack : ∀ values, q.values? = some values → e.stored.IsReadBack schema

namespace Table

variable {t t' : Table} {c : Circumstances} {files files' : FileTree} {answer : EntrySet}

/-- An entry that is added is typed, and its record is all that is added to the file. -/
theorem isTyped_of_add {table : String} {values : List Literal} (hid : IsRecordId c.newId)
    (hrun : t.query c (.add table values) files = .ok (answer, t') files') :
    (∀ l ∈ values, l.isWildcard = false) ∧
      ∃ e content, answer = [e] ∧ e.IsTyped t.schema (.add table values) ∧
        files.read t.path = .ok content ∧
        files'.read t.path = .ok (content ++ e.stored.encode.toUTF8) := by
  obtain ⟨data, content, hrow, rfl, hold, hnew⟩ :=
    exists_of_add (return_eq_ok_iff.1 (query_eq_ok_iff.1 hrun).2).1
  obtain ⟨hwild, htakes⟩ := takes_of_newRow hrow c.newId
  have hfits := fits_of_newRow hrow c.newId
  have hstored : Entry.IsStored t.schema { id := c.newId, data } := ⟨hfits, hid, rfl⟩
  refine ⟨hwild, _, content, rfl, ⟨hfits, ?_, fun _ _ => hstored.isReadBack⟩, hold, hnew⟩
  rintro _ ⟨⟩
  exact htakes

/-- Entries in which values are set are typed, and their records are all that is written. -/
theorem isTyped_of_set {table : String} {target : Target} {values : List Literal}
    (hrun : t.query c (.set table target values) files = .ok (answer, t') files') :
    (∀ e ∈ answer, e.IsTyped t.schema (.set table target values)) ∧
      ∃ text edits, files.readText t.path = .ok text ∧
        files'.readText t.path = .ok (String.ofList (Text.splice 0 text.toList edits)) ∧
        edits.map Text.Edit.replacement = answer.map fun e => e.stored.encodeChars := by
  obtain ⟨row, text, selected, hrow, htext, hselected, rfl, hnew⟩ :=
    exists_of_set (return_eq_ok_iff.1 (query_eq_ok_iff.1 hrun).2).1
  refine ⟨List.forall_mem_map.2 fun s hs => ?_, text, _, htext, hnew, ?_⟩
  · have hstored := isStored_of_select hselected s hs
    have hupdated := hstored.overwrite (coerceRow_eq_ok_iff.1 hrow).1
    refine ⟨hupdated.fits, ?_, fun _ _ => hupdated.isReadBack⟩
    rintro _ ⟨⟩
    exact hstored.fits.takes_overwrite (suits_of_coerceRow hrow)
  · rw [List.map_map, List.map_map]
    rfl

/-- Every entry that a query answers is typed. -/
theorem isTyped_of_query {q : Query} (hid : IsRecordId c.newId)
    (hrun : t.query c q files = .ok (answer, t') files') : ∀ e ∈ answer, e.IsTyped t.schema q := by
  have hfits := t.query_fits files c q
  rw [hrun] at hfits
  cases q with
  | add table values =>
    obtain ⟨-, e, -, rfl, he, -⟩ := isTyped_of_add hid hrun
    exact List.forall_mem_singleton.2 he
  | set table target values => exact (isTyped_of_set hrun).1
  | remove table target => exact fun e he => ⟨hfits e he, nofun, nofun⟩
  | get table target => exact fun e he => ⟨hfits e he, nofun, nofun⟩
  | drop table => exact fun e he => ⟨hfits e he, nofun, nofun⟩

end Table

/-! ## Main result -/

/-- Whatever stands in the file of a table, each entry that a query answers has just the columns of
the table, in their order and with values of their types. The one record that is added, and those
that are put in the place of others when values are set, are the records of the entries that are
answered: a reader that comes to one of them decodes that entry under the schema of the table, and
each value in it that a literal has given is the one that the literal stands for, and finite if it
is a decimal. A batch answers one part for each query, and each part is so for the table that its
query names. New entries get ids that a record can have, as all those are that a store makes
(`isRecordId_ofWord`). -/
theorem query_isTyped :
    (∀ (t t' : Table) (c : Circumstances) (q : Query) (files files' : FileTree)
      (answer : EntrySet), IsRecordId c.newId → t.query c q files = .ok (answer, t') files' →
        (∀ e ∈ answer, e.IsTyped t.schema q) ∧
        (∀ table values, q = .add table values →
          (∀ l ∈ values, l.isWildcard = false) ∧
            ∃ e content, answer = [e] ∧ files.read t.path = .ok content ∧
              files'.read t.path = .ok (content ++ e.stored.encode.toUTF8)) ∧
        ∀ table target values, q = .set table target values →
          ∃ text edits, files.readText t.path = .ok text ∧
            files'.readText t.path = .ok (String.ofList (Text.splice 0 text.toList edits)) ∧
            edits.map Text.Edit.replacement = answer.map fun e => e.stored.encodeChars) ∧
    ∀ (circumstances : Nat → Circumstances) (qs : QuerySet) (s s' : Store) (answer : EntrySet),
      (∀ n, IsRecordId (circumstances n).newId) →
      Store.query circumstances qs s = .ok answer s' →
        ∃ parts : List EntrySet, answer = parts.flatten ∧
          List.Forall₂ (fun q part =>
            ∃ t, s.database.find? q.table = some t ∧ ∀ e ∈ part, e.IsTyped t.schema q)
            qs parts := by
  refine ⟨fun t t' c q files files' answer hid hrun => ⟨?_, ?_, ?_⟩, ?_⟩
  · exact Table.isTyped_of_query hid hrun
  · rintro table values rfl
    obtain ⟨hwild, e, content, hanswer, -, hold, hnew⟩ := Table.isTyped_of_add hid hrun
    exact ⟨hwild, e, content, hanswer, hold, hnew⟩
  · rintro table target values rfl
    exact (Table.isTyped_of_set hrun).2
  · intro circumstances qs s s' answer hids hrun
    exact Store.exists_parts (fun n _ _ _ _ _ _ => Table.isTyped_of_query (hids n)) hrun

/-- An entry is added behind a record that no query wrote, and the strings of both are set while
their decimals stay; and the same values are set in the old file alone. -/
theorem query_isTyped_lone_backslash :
    ∃ (t : Table) (s : Store) (set : Query),
      t = { name := "T", schema := ⟨[⟨"A", .decimal⟩, ⟨"B", .string⟩]⟩, path := "T.tbl" } ∧
      s = ⟨{ config := { dataDir := "" }, tables := [t] },
        ⟨[(["T.tbl"], .file "[T,1:A,2:B] \x7bx;D:+1.50,S:C:\\d\x7d".toUTF8)], []⟩⟩ ∧
      set = .set "T" .all [.bare "*", .bare "w"] ∧
      (∃ answer s', Store.query (fun _ => ⟨EntryId.ofWord 7, 0⟩)
          [.add "T" [.bare "2.5", .ofQuoted "u,v"], set] s = .ok answer s' ∧
        answer.length = 3 ∧
        ∃ parts : List EntrySet, answer = parts.flatten ∧
          List.Forall₂ (fun q part =>
            ∃ t, s.database.find? q.table = some t ∧ ∀ e ∈ part, e.IsTyped t.schema q)
            [.add "T" [.bare "2.5", .ofQuoted "u,v"], set] parts) ∧
      ∃ result files', t.query ⟨EntryId.ofWord 7, 0⟩ set s.files = .ok result files' ∧
        (∀ e ∈ result.1, e.IsTyped t.schema set) ∧
        ∃ text edits, s.files.readText t.path = .ok text ∧
          files'.readText t.path = .ok (String.ofList (Text.splice 0 text.toList edits)) ∧
          edits.map Text.Edit.replacement = result.1.map fun e => e.stored.encodeChars := by
  refine ⟨_, _, _, rfl, rfl, rfl, ?_, ?_⟩
  · refine exists_of_succeeds (p := fun answer _ => answer.length == 3) (by decide +kernel) ?_
    intro answer s' hrun hlength
    exact ⟨beq_iff_eq.1 hlength,
      query_isTyped.2 _ _ _ s' answer (fun _ => isRecordId_ofWord 7) hrun⟩
  · refine exists_of_succeeds (p := fun _ _ => true) (by decide +kernel) ?_
    intro result files' hrun _
    obtain ⟨htyped, -, hset⟩ := query_isTyped.1 _ result.2 ⟨EntryId.ofWord 7, 0⟩ _ _ files' result.1
      (isRecordId_ofWord 7) hrun
    exact ⟨htyped, hset _ _ _ rfl⟩

end RecordStore

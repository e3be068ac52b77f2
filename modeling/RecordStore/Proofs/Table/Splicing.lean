import RecordStore.Proofs.Table.Update

/-!
# Changes touch only the selected records

Removing and setting entries replace some byte ranges of a file. On any file whose records can be
read, however it was written, the ranges are those of the chosen records, everything else stays as
it is, and the new file is read as the old entries with just the chosen ones changed.

- `readEntries`: the entries of a file text; `exists_layout`: such a text has parts;
- `Query.update`: what becomes of a selected entry;
- `readEntries_replaced`: the entries of a text in which records were replaced;
- `query_splices`: what a query that removes or sets entries does to the file.
-/

namespace RecordStore

/-! ## Reading a whole file -/

/-- The entries of a file text under a schema, in file order. -/
def readEntries (schema : Schema) (text : String) : Except Corruption (List Entry) := do
  let header ← Header.decode text
  (recordsFrom text header.length).mapM fun found => found.bind (·.decode schema)

variable {schema : Schema}

theorem exists_raws {found : List (Except Corruption RawRecord)} {entries : List Entry}
    (h : found.mapM (fun r => r.bind (·.decode schema)) = .ok entries) :
    ∃ raws : List RawRecord, found = raws.map .ok ∧
      raws.mapM (·.decode schema) = .ok entries := by
  induction found generalizing entries with
  | nil => exact ⟨[], rfl, h⟩
  | cons r found ih =>
    obtain ⟨e, entries, rfl, he, hentries⟩ := mapM_cons_eq_ok_iff.1 h
    obtain ⟨raws, rfl, hraws⟩ := ih hentries
    cases r with
    | error fault => cases he
    | ok raw => exact ⟨raw :: raws, rfl, mapM_cons_eq_ok_iff.2 ⟨e, entries, rfl, he, hraws⟩⟩

theorem exists_stored {pos : Nat} {ps : List Piece} {entries : List Entry}
    (h : (Piece.found pos ps).mapM (·.decode schema) = .ok entries) :
    ∃ rows : List (Stored schema), rows.map Stored.toPiece = ps ∧
      rows.map Stored.entry = entries := by
  induction ps generalizing pos entries with
  | nil =>
    cases h
    exact ⟨[], rfl, rfl⟩
  | cons p ps ih =>
    obtain ⟨e, entries, rfl, he, hentries⟩ := mapM_cons_eq_ok_iff.1 h
    obtain ⟨rows, rfl, rfl⟩ := ih hentries
    exact ⟨⟨p, e, Record.decode_found_eq_ok_iff.1 he⟩ :: rows, rfl, rfl⟩

/-- A file whose records can all be read consists of a header, blanks and records. -/
theorem exists_layout {text : String} {header : Header} {entries : List Entry}
    (hheader : Header.decode text = .ok header)
    (hentries : readEntries schema text = .ok entries) :
    ∃ l : Layout schema, l.chars = text.toList ∧ l.header = header ∧ l.entries = entries := by
  obtain ⟨head, tail, htext, hlength, hdecoded⟩ := Header.exists_of_decodeChars hheader
  rw [readEntries, hheader] at hentries
  obtain ⟨raws, hraws, hdecode⟩ := exists_raws hentries
  rw [recordsFrom, htext, ← hlength, dropBytes?_append] at hraws
  obtain ⟨gap, ps, hgap, rfl, rfl⟩ := exists_pieces hraws
  obtain ⟨rows, rfl, rfl⟩ := exists_stored hdecode
  refine ⟨⟨header, head, gap, rows, hdecoded, hlength, hgap⟩, ?_, rfl, rfl⟩
  rw [htext, Layout.chars, List.flatMap_map]

/-- A readable file is read as its entries. -/
theorem Layout.readEntries_chars (l : Layout schema) :
    readEntries schema (String.ofList l.chars) = .ok l.entries := by
  have hdecode (pos : Nat) (rows : List (Stored schema)) :
      (foundAt pos rows).mapM (fun found => found.bind (·.decode schema)) =
        .ok (rows.map Stored.entry) := by
    induction rows generalizing pos with
    | nil => rfl
    | cons s rows ih =>
      exact mapM_cons_eq_ok_iff.2
        ⟨s.entry, _, rfl, Record.decode_found_eq_ok_iff.2 s.holds, ih _⟩
  rw [readEntries, l.decode]
  show (RecordStore.recordsFrom _ l.header.length).mapM _ = _
  rw [l.recordsFrom]
  exact hdecode l.start l.rows

/-! ## Reading a file with replaced records -/

/-- What replaces an entry: nothing, or an entry that a file can hold. -/
def Storable (schema : Schema) (update : Entry → Option Entry) : Prop :=
  ∀ e e', e.IsStored schema → update e = some e' → e'.IsStored schema

/-- The text of what replaces an entry. -/
def updateChars (update : Entry → Option Entry) (e : Entry) : List Char :=
  ((update e).map Entry.encodeChars).getD []

/-- A record at the front of a text gives the first entry. -/
theorem mapM_records_append {r : Record} {e : Entry} (h : r.Holds schema e) {pos : Nat}
    {cs : List Char} {es : List Entry}
    (hrest : (records (pos + Text.utf8Length r.chars) cs).mapM
      (fun found => found.bind (·.decode schema)) = .ok es) :
    (records pos (r.chars ++ cs)).mapM (fun found => found.bind (·.decode schema)) =
      .ok (e :: es) := by
  rw [records_record_append]
  exact mapM_cons_eq_ok_iff.2 ⟨e, es, rfl, Record.decode_found_eq_ok_iff.2 h, hrest⟩

/-- Records that are left out or replaced do not disturb the reading of the others. -/
theorem mapM_records_replaceRecords {update : Entry → Option Entry}
    (hupdate : Storable schema update) {gap : List Char}
    (hgap : ∀ c ∈ gap, Text.isAsciiBlank c = true) (pos : Nat)
    (rows : List (Stored schema × Bool)) :
    (records pos (gap ++ replaceRecords (updateChars update) rows)).mapM
        (fun found => found.bind (·.decode schema)) =
      .ok (rows.flatMap fun (s, mark) => if mark then (update s.entry).toList else [s.entry]) := by
  -- the blanks of a record that is left out stand before the next one, so any blanks may come first
  induction rows generalizing pos gap with
  | nil =>
    rw [records_blank_append hgap, replaceRecords, List.flatMap_nil, records]
    rfl
  | cons row rows ih =>
    obtain ⟨s, mark⟩ := row
    have hcons : replaceRecords (updateChars update) ((s, mark) :: rows) =
        (if mark then updateChars update s.entry else s.record.chars) ++
          (s.gap ++ replaceRecords (updateChars update) rows) := by
      rw [replaceRecords, List.flatMap_cons, List.append_assoc]
      rfl
    rw [records_blank_append hgap, hcons, List.flatMap_cons]
    cases mark with
    | false => exact mapM_records_append s.holds (ih s.blank _)
    | true =>
      cases he : update s.entry with
      | none =>
        simp only [updateChars, he]
        exact ih s.blank _
      | some e =>
        have hholds := (hupdate _ _ s.holds.isStored he).holds_record
        simp only [updateChars, he]
        exact mapM_records_append hholds (ih s.blank _)

/-- A file in which records were replaced is read as its entries with the chosen ones replaced. -/
theorem readEntries_replaced (l : Layout schema) (c : Choice) {update : Entry → Option Entry}
    (hupdate : Storable schema update) :
    readEntries schema (String.ofList (l.replaced c (updateChars update))) =
      .ok (c.replace (fun e => (update e).toList) l.entries) := by
  have hdecode : Header.decode (String.ofList (l.replaced c (updateChars update))) =
      .ok l.header := by
    rw [Header.decode, String.toList_ofList]
    exact l.decoded _
  rw [readEntries, hdecode, Layout.entries, Choice.replace_eq_marks, zip_marks, List.flatMap_map]
  show (recordsFrom _ l.header.length).mapM _ = _
  rw [recordsFrom, String.toList_ofList, Layout.replaced, ← l.length_head, dropBytes?_append]
  exact mapM_records_replaceRecords hupdate l.blank _ _

/-! ## Queries that change records -/

/-- What a query makes of a selected entry: the entry with the new values, or nothing. -/
def Query.update : Query → Entry → Option Entry
  | .set _ _ values, e => some (e.overwrite values)
  | _, _ => none

/-- Whether every value that a query sets suits its column. -/
def Query.Suits (schema : Schema) : Query → Prop
  | .set _ _ values => List.Forall₂ Literal.Suits values schema.columns
  | _ => True

namespace Table

variable {t t' : Table} {files files' : FileTree} {c : Circumstances} {q : Query} {target : Target}
  {answer : EntrySet}

/-- A file that was rewritten is read as the text with the chosen records replaced. -/
theorem readText_of_rewrite {l : Layout t.schema} {choice : Choice} {text : Entry → List Char}
    {written : EntrySet} (hread : files.readText t.path = .ok (String.ofList l.chars))
    (h : t.rewrite l choice text written files = .ok answer files') :
    files'.readText t.path = .ok (String.ofList (l.replaced choice text)) := by
  unfold rewrite at h
  split at h
  · next hnil =>
    cases h
    rw [Layout.replaced_of_chosen_nil hnil, hread]
  · simp only [bind, EStateM.bind] at h
    split at h
    · next hreplace =>
      cases h
      exact (stores_of_replaceContent hreplace).readText
    · cases h

/-- A query that removes or sets entries, and succeeds, rewrites the file. -/
theorem exists_rewrite {l : Layout t.schema} (htarget : q.target? = some target)
    (hmutation : q.isMutation = true)
    (hread : files.readText t.path = .ok (String.ofList l.chars))
    (hrun : t.query c q files = .ok (answer, t') files') :
    ∃ choice written, t.choose target l.entries = .ok choice ∧ q.Suits t.schema ∧
      Storable t.schema q.update ∧
      t.rewrite l choice (updateChars q.update) written files = .ok answer files' := by
  obtain ⟨-, hrun⟩ := query_eq_ok_iff.1 hrun
  cases q with
  | add _ _ => cases htarget
  | get _ _ => cases hmutation
  | drop _ => cases htarget
  | remove table target' =>
    cases htarget
    have hremove := (return_eq_ok_iff.1 hrun).1
    rw [remove_eq l hread] at hremove
    split at hremove
    · cases hremove
    · next choice hchoose =>
      refine ⟨choice, _, hchoose, trivial, ?_, hremove⟩
      intro e e' _ h
      cases h
  | set table target' values =>
    cases htarget
    have hset := (return_eq_ok_iff.1 hrun).1
    obtain ⟨row, choice, hrow, hchoose, hrewrite⟩ := (set_eq_ok_iff hread).1 hset
    refine ⟨choice, _, hchoose, suits_of_coerceRow hrow, ?_, hrewrite⟩
    rintro e e' hstored he
    cases he
    exact hstored.overwrite (coerceRow_eq_ok_iff.1 hrow).1

/-- A query that removes or sets entries changes the text of the file only at the chosen records:
each is replaced by nothing or by the record of its entry with the new values. The records and the
blanks between them are found in the old text at the bytes that this says, and the new text is read
as the old entries in which the chosen ones are deleted or have the new values. -/
theorem query_splices {text : String} {header : Header} {entries : List Entry}
    (hread : files.readText t.path = .ok text) (hheader : Header.decode text = .ok header)
    (hentries : readEntries t.schema text = .ok entries) (htarget : q.target? = some target)
    (hmutation : q.isMutation = true) (hrun : t.query c q files = .ok (answer, t') files') :
    ∃ (choice : Choice) (head : List Char) (rows : List (Stored t.schema × Bool))
        (newText : String),
      t.choose target entries = .ok choice ∧ q.Suits t.schema ∧
        rows.map (fun row => row.1.entry) = entries ∧ rows.map Prod.snd = choice.marks entries ∧
        text.toList = head ++ rows.flatMap (fun row => row.1.record.chars ++ row.1.gap) ∧
        recordsFrom text header.length = foundAt (Text.utf8Length head) (rows.map Prod.fst) ∧
        files'.readText t.path = .ok newText ∧
        newText.toList = head ++ rows.flatMap (fun row =>
          (if row.2 then updateChars q.update row.1.entry else row.1.record.chars) ++ row.1.gap) ∧
        Header.decode newText = .ok header ∧
        readEntries t.schema newText =
          .ok (choice.replace (fun e => (q.update e).toList) entries) := by
  obtain ⟨l, hchars, rfl, rfl⟩ := exists_layout hheader hentries
  have htext : text = String.ofList l.chars := by rw [hchars, String.ofList_toList]
  subst htext
  obtain ⟨choice, written, hchoose, hsuits, hstorable, hrewrite⟩ :=
    exists_rewrite htarget hmutation hread hrun
  -- the blanks after the header are part of what stands before the first record
  refine ⟨choice, l.head ++ l.gap, choice.mark l.rows, _, hchoose, hsuits, ?_, ?_, ?_, ?_,
    readText_of_rewrite hread hrewrite, ?_, ?_, readEntries_replaced l choice hstorable⟩
  · have hentry : (choice.mark l.rows).map (fun row => row.1.entry) =
        ((choice.mark l.rows).map Prod.fst).map Stored.entry := by
      rw [List.map_map]
      rfl
    rw [hentry, choice.map_mark]
    rfl
  · rw [Choice.mark, List.map_snd_zip]
    · rfl
    · rw [Choice.length_marks, List.length_map]
  · have hrows : (choice.mark l.rows).flatMap (fun row => row.1.record.chars ++ row.1.gap) =
        ((choice.mark l.rows).map Prod.fst).flatMap (·.chars) := by
      rw [List.flatMap_map]
      rfl
    rw [String.toList_ofList, hrows, choice.map_mark, List.append_assoc]
    rfl
  · rw [l.recordsFrom, choice.map_mark, Text.utf8Length_append]
    rfl
  · rw [String.toList_ofList, Layout.replaced, List.append_assoc]
    rfl
  · rw [Header.decode, String.toList_ofList]
    exact l.decoded _

/-- A file that no query wrote, with blanks between the records and a sign before a number, after
the first of its two entries is removed. -/
theorem query_splices_hand_written :
    ∃ (t' : Table) (files' : FileTree) (newText : String),
      query { name := "T", schema := ⟨[⟨"A", .integer⟩]⟩, path := "t" } ⟨"", 0⟩
          (.remove "T" (.entry "a"))
          ⟨[(["t"], .file "[T,0:A] \x7ba;I:+5\x7d \x7bb;I:7\x7d".toUTF8)], []⟩ =
        .ok ([{ id := "a", data := [("A", .int 5)] }], t') files' ∧
      files'.readText "t" = .ok newText ∧
      readEntries ⟨[⟨"A", .integer⟩]⟩ newText = .ok [{ id := "b", data := [("A", .int 7)] }] := by
  let schema : Schema := ⟨[⟨"A", .integer⟩]⟩
  let text : String := "[T,0:A] \x7ba;I:+5\x7d \x7bb;I:7\x7d"
  let t : Table := { name := "T", schema, path := "t" }
  let files : FileTree := ⟨[(["t"], .file text.toUTF8)], []⟩
  have hleads : files.LeadsTo t.path ["t"] := ⟨by decide, by decide, by decide⟩
  have hread : files.readText t.path = .ok text := FileTree.readText_eq_ok hleads rfl
  have hheader : Header.decode text = .ok ⟨"T", schema, 7⟩ := by decide
  have hentries : readEntries schema text =
      .ok [{ id := "a", data := [("A", .int 5)] }, { id := "b", data := [("A", .int 7)] }] := by
    cbv
  obtain ⟨l, hchars, -, hl⟩ := exists_layout hheader hentries
  have hstores : t.Stores files l.chars := by
    rw [hchars]
    exact ⟨⟨["t"], hleads, by rw [String.ofList_toList]; rfl⟩,
      [".t.tmp"], by decide, by decide, by decide⟩
  have hchoose : t.choose (.entry "a") l.entries = .ok (.first "a") := by rw [hl]; rfl
  obtain ⟨files', hremove, -⟩ := hstores.remove hchoose
  have hrun : t.query ⟨"", 0⟩ (.remove "T" (.entry "a")) files =
      .ok (Choice.chosen (.first "a") l.entries, t) files' := by
    have hlive : t.dropped = false := rfl
    rw [query, hlive, if_neg Bool.false_ne_true]
    simp only [run, bind, EStateM.bind, hremove]
    rfl
  obtain ⟨choice, _, _, newText, hchoice, _, _, _, _, _, hnew, _, _, hentries'⟩ :=
    query_splices hread hheader hentries rfl rfl hrun
  rw [hl] at hchoose hrun
  cases hchoice.symm.trans hchoose
  exact ⟨t, files', newText, hrun, hnew, hentries'⟩

end Table

end RecordStore

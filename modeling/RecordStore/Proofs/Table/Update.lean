import RecordStore.Proofs.Table.Selection
import RecordStore.Proofs.Table.Storage

/-!
# Queries on a readable file

The operations on a table that read its file, on a file whose records can all be read. What they
answer, and the text that they write, is a matter of the entries alone.

- `Entry.overwrite`: an entry with new values in the columns that are no wildcards;
- `Layout.replaced`: the text of a file in which the chosen records are replaced, which is the old
  text where each is replaced by itself (`Layout.replaced_eq_chars`);
- `add_eq`, `get_eq`, `remove_eq`, `set_eq`: what these queries do, as long as the file can be read;
  `set_eq_ok_iff`: when values are set.
-/

namespace RecordStore

/-! ## Rows of values -/

/-- The entry with the value of each literal in the place of its own one, except where the literal
is a wildcard. -/
def Entry.overwrite (values : List Literal) (e : Entry) : Entry where
  id := e.id
  data := (e.data.zip values).map fun ((column, old), l) =>
    (column, if l.isWildcard then old else (l.coerce? old.storageType).getD old)

theorem coerceColumn_eq_ok_iff {l : Literal} {column : Column} {value : Option Value} :
    Table.coerceColumn l column = .ok value ↔
      (l.isWildcard = true ∧ value = none) ∨
        (l.isWildcard = false ∧ ∃ v, l.coerce? column.type = some v ∧ value = some v) := by
  unfold Table.coerceColumn
  split
  · next hwild => simp [hwild, eq_comm]
  · next hwild =>
    rw [Bool.not_eq_true] at hwild
    split
    · next v hv => simp [hwild, hv, eq_comm]
    · next hv => simp [hwild, hv]

/-- Whether a literal is a value of the column, or leaves the value of the column as it is. -/
def Literal.Suits (l : Literal) (column : Column) : Prop :=
  l.isWildcard = true ∨ ∃ v, l.coerce? column.type = some v

/-- Just the literals that suit a column are accepted there. -/
theorem exists_coerceColumn_iff {l : Literal} {column : Column} :
    (∃ value, Table.coerceColumn l column = .ok value) ↔ l.Suits column := by
  constructor
  · rintro ⟨value, h⟩
    rcases coerceColumn_eq_ok_iff.1 h with ⟨hwild, -⟩ | ⟨-, v, hv, -⟩
    · exact .inl hwild
    · exact .inr ⟨v, hv⟩
  · intro h
    cases hwild : l.isWildcard with
    | true => exact ⟨none, coerceColumn_eq_ok_iff.2 (.inl ⟨hwild, rfl⟩)⟩
    | false =>
      obtain ⟨v, hv⟩ := h.resolve_left (Bool.eq_false_iff.1 hwild)
      exact ⟨some v, coerceColumn_eq_ok_iff.2 (.inr ⟨hwild, v, hv, rfl⟩)⟩

theorem storageType_of_coerce? {l : Literal} {type : StorageType} {v : Value}
    (h : l.coerce? type = some v) : v.storageType = type := by
  unfold Literal.coerce? at h
  split at h
  · cases h
  · cases type with
    | integer =>
      obtain ⟨n, -, rfl⟩ := Option.map_eq_some_iff.1 h
      rfl
    | decimal =>
      obtain ⟨x, -, hx⟩ := Option.bind_eq_some_iff.1 h
      split at hx
      · cases hx
        rfl
      · cases hx
    | string =>
      cases h
      rfl

theorem coerceRow_eq_ok_iff {schema : Schema} {values : List Literal} {row : List (Option Value)} :
    Table.coerceRow schema values = .ok row ↔
      values.length = schema.columns.length ∧
        (values.zip schema.columns).mapM (fun (l, column) => Table.coerceColumn l column) =
          .ok row := by
  unfold Table.coerceRow Schema.size
  split
  · next hlength =>
    constructor
    · intro h
      cases h
    · intro h
      exact absurd h.1 hlength
  · next hlength => exact ⟨fun h => ⟨Decidable.not_not.1 hlength, h⟩, fun h => h.2⟩

/-- A row of values is accepted only if every literal suits its column. -/
theorem suits_of_coerceRow {schema : Schema} {values : List Literal} {row : List (Option Value)}
    (h : Table.coerceRow schema values = .ok row) :
    List.Forall₂ Literal.Suits values schema.columns := by
  obtain ⟨hlength, hvalues⟩ := coerceRow_eq_ok_iff.1 h
  refine List.forall₂_iff_zip.2 ⟨hlength, fun {l column} hmem => ?_⟩
  obtain ⟨value, -, hvalue⟩ := exists_of_mem_of_mapM hvalues hmem
  exact exists_coerceColumn_iff.1 ⟨value, hvalue⟩

/-- Values that suit their columns make a row. -/
theorem exists_coerceRow {schema : Schema} {values : List Literal}
    (h : List.Forall₂ Literal.Suits values schema.columns) :
    ∃ row, Table.coerceRow schema values = .ok row := by
  obtain ⟨hlength, hsuits⟩ := List.forall₂_iff_zip.1 h
  cases hvalues : (values.zip schema.columns).mapM
      fun (l, column) => Table.coerceColumn l column with
  | ok row => exact ⟨row, coerceRow_eq_ok_iff.2 ⟨hlength, hvalues⟩⟩
  | error e =>
    -- the first value that is refused would not suit its column
    obtain ⟨before, ⟨l, column⟩, after, hzip, -, hrefused⟩ := mapM_eq_error_iff.1 hvalues
    have hmem : (l, column) ∈ values.zip schema.columns := by simp [hzip]
    obtain ⟨value, hvalue⟩ := exists_coerceColumn_iff.2 (hsuits hmem)
    cases hrefused.symm.trans hvalue

/-- Replacing values as a query does is overwriting them. -/
theorem replaceValues_eq_overwrite {schema : Schema} {values : List Literal}
    {row : List (Option Value)} {e : Entry} (hrow : Table.coerceRow schema values = .ok row)
    (hfits : e.Fits schema) : Table.replaceValues row e = e.overwrite values := by
  obtain ⟨hlength, hvalues⟩ := coerceRow_eq_ok_iff.1 hrow
  have hcolumns : schema.columns = e.data.map fun p => ⟨p.1, p.2.storageType⟩ := hfits.symm
  rw [hcolumns] at hvalues hlength
  simp only [Table.replaceValues, Entry.overwrite, Entry.mk.injEq, true_and, and_true]
  generalize e.data = data at *
  clear hrow hcolumns
  -- literals and columns are walked along together; both lists have the same length
  induction values generalizing row data with
  | nil =>
    cases data with
    | nil => rfl
    | cons p data => cases hlength
  | cons l values ih =>
    cases data with
    | nil => cases hlength
    | cons p data =>
      obtain ⟨value, tail, rfl, hvalue, htail⟩ := mapM_cons_eq_ok_iff.1 hvalues
      have hrest := ih data (Nat.succ.inj hlength) htail
      simp only [List.zip_cons_cons, List.map_cons, hrest]
      congr 2
      rcases coerceColumn_eq_ok_iff.1 hvalue with ⟨hwild, rfl⟩ | ⟨hwild, v, hv, rfl⟩
      · rw [hwild]
        rfl
      · rw [hwild, hv]
        rfl

/-- The type of a value stays the same when it is set. -/
theorem storageType_overwrite (l : Literal) (old : Value) :
    (if l.isWildcard then old else (l.coerce? old.storageType).getD old).storageType =
      old.storageType := by
  split
  · rfl
  · cases hv : l.coerce? old.storageType with
    | none => rfl
    | some v => exact storageType_of_coerce? hv

/-- Overwriting values keeps their columns. -/
theorem Entry.Fits.overwrite {schema : Schema} {e : Entry} (h : e.Fits schema)
    {values : List Literal} (hlength : values.length = schema.columns.length) :
    (e.overwrite values).Fits schema := by
  have hdata : e.data.length = values.length := by
    rw [hlength, ← h, Entry.columns, List.length_map]
  have hcolumns : (e.overwrite values).columns = e.columns := by
    have hzip : (e.data.zip values).map Prod.fst = e.data := List.map_fst_zip (Nat.le_of_eq hdata)
    conv_rhs => rw [Entry.columns, ← hzip]
    rw [Entry.columns, Entry.overwrite, List.map_map, List.map_map]
    refine List.map_congr_left fun x _ => ?_
    simp only [Function.comp, storageType_overwrite]
  exact hcolumns.trans h

/-- Overwriting values leaves an entry that a file can hold. -/
theorem Entry.IsStored.overwrite {schema : Schema} {e : Entry} (h : e.IsStored schema)
    {values : List Literal} (hlength : values.length = schema.columns.length) :
    (e.overwrite values).IsStored schema :=
  ⟨h.fits.overwrite hlength, h.isRecordId, rfl⟩

/-- A new row has one value for each column. -/
theorem fits_of_newRow {schema : Schema} {values : List Literal} {data : List (String × Value)}
    (h : Table.newRow schema values = .ok data) (id : String) :
    Entry.Fits { id, data } schema := by
  obtain ⟨row, hrow, hdata⟩ := bind_eq_ok_iff.1 h
  obtain ⟨hlength, hvalues⟩ := coerceRow_eq_ok_iff.1 hrow
  show data.map _ = _
  clear h hrow
  -- a wildcard is no value of a new row, so every literal gives the value of its column
  generalize schema.columns = columns at *
  induction values generalizing row data columns with
  | nil =>
    rw [List.length_nil, eq_comm, List.length_eq_zero_iff] at hlength
    subst hlength
    cases hvalues
    cases hdata
    rfl
  | cons l values ih =>
    obtain ⟨column, columns, rfl⟩ := List.exists_cons_of_length_eq_add_one hlength.symm
    obtain ⟨value, row, rfl, hvalue, hrow⟩ := mapM_cons_eq_ok_iff.1 hvalues
    obtain ⟨p, data, rfl, hp, hdata⟩ := mapM_cons_eq_ok_iff.1 hdata
    rw [List.map_cons, ih row columns hdata (Nat.succ.inj hlength) hrow]
    congr 1
    rcases coerceColumn_eq_ok_iff.1 hvalue with ⟨-, rfl⟩ | ⟨-, v, hv, rfl⟩
    · cases hp
    · cases hp
      rw [storageType_of_coerce? hv]

/-! ## Queries -/

/-- The text of the file with another text in the place of each chosen record. -/
def Layout.replaced {schema : Schema} (l : Layout schema) (c : Choice)
    (text : Entry → List Char) : List Char :=
  l.head ++ (l.gap ++ replaceRecords text (c.mark l.rows))

/-- The edits of the selected records make just this text. -/
theorem Layout.splice {schema : Schema} (l : Layout schema) (c : Choice)
    (text : Entry → List Char) :
    Text.splice 0 l.chars ((selectedAt l.start (c.mark l.rows)).map (Selected.edit text)) =
      l.replaced c text := by
  have hchars : l.chars = l.head ++ l.gap ++ (c.mark l.rows).flatMap fun row => row.1.chars := by
    conv_lhs => rw [Layout.chars, ← c.map_mark l.rows, List.flatMap_map, ← List.append_assoc]
  have hstart : l.start = 0 + Text.utf8Length (l.head ++ l.gap) := by
    rw [Layout.start, Text.utf8Length_append, Nat.zero_add]
  rw [hchars, hstart, splice_selectedAt, List.append_assoc]
  rfl

/-- The entries of the selected records are the chosen ones. -/
theorem Layout.map_entry_selected {schema : Schema} (l : Layout schema) (c : Choice) :
    (selectedAt l.start (c.mark l.rows)).map Selected.entry = c.chosen l.entries := by
  rw [map_entry_selectedAt, marked_mark]
  rfl

/-- The text stays the same where each chosen record is replaced by just its own text. -/
theorem Layout.replaced_eq_chars {schema : Schema} {l : Layout schema} {c : Choice}
    {text : Entry → List Char}
    (h : ∀ s ∈ marked (c.mark l.rows), text s.entry = s.record.chars) :
    l.replaced c text = l.chars := by
  have hrows : replaceRecords text (c.mark l.rows) =
      ((c.mark l.rows).map Prod.fst).flatMap (·.chars) := by
    rw [replaceRecords, List.flatMap_map]
    refine List.flatMap_congr fun x hx => ?_
    obtain ⟨s, mark⟩ := x
    cases mark with
    | false => rfl
    | true =>
      have hmarked : s ∈ marked (c.mark l.rows) :=
        List.mem_map_of_mem (List.mem_filter.2 ⟨hx, rfl⟩)
      simp only [if_true, h s hmarked]
      rfl
  rw [replaced, hrows, c.map_mark]
  rfl

/-- Where no entry is chosen, no record is replaced. -/
theorem Layout.replaced_of_chosen_nil {schema : Schema} {l : Layout schema} {c : Choice}
    (h : c.chosen l.entries = []) (text : Entry → List Char) : l.replaced c text = l.chars := by
  have hnone : marked (c.mark l.rows) = [] := by
    rw [← List.map_eq_nil_iff (f := Stored.entry), marked_mark]
    exact h
  refine replaced_eq_chars ?_
  rw [hnone]
  exact List.forall_mem_nil _

/-- The selected records hold entries that fit the schema. -/
theorem fits_of_mem_selectedAt {schema : Schema} (pos : Nat) (rows : List (Stored schema × Bool)) :
    ∀ s ∈ selectedAt pos rows, s.entry.Fits schema := by
  intro s hs
  have hmem : s.entry ∈ (selectedAt pos rows).map Selected.entry := List.mem_map_of_mem hs
  rw [map_entry_selectedAt] at hmem
  obtain ⟨stored, -, heq⟩ := List.mem_map.1 hmem
  rw [← heq]
  exact stored.holds.isStored.fits

namespace Table

variable {t : Table} {files : FileTree}

theorem readText_eq {text : String} (h : files.readText t.path = .ok text) :
    Disk.readText t.path files = .ok text files := by
  rw [Disk.readText, Disk.ask, h]

/-- Adding answers the new entry and puts its record at the end of the file. -/
theorem add_eq {newId : String} {values : List Literal} {data : List (String × Value)}
    {files' : FileTree} (hrow : newRow t.schema values = .ok data)
    (happend : files.append t.path (Entry.mk newId data none).encode.toUTF8 = .ok files') :
    t.add newId values files = .ok [{ id := newId, data }] files' := by
  have hchange := (Disk.change_eq_ok_iff t.path
    (·.append t.path (Entry.mk newId data none).encode.toUTF8)).2 happend
  simp only [add, bind, EStateM.bind, hrow, Disk.ofExcept, hchange]
  rfl

/-- Reading answers the chosen entries and leaves the files alone. -/
theorem get_eq (l : Layout t.schema) (h : files.readText t.path = .ok (String.ofList l.chars))
    (elapsed : UInt64) (target : Target) :
    t.get elapsed target files =
      match t.choose target l.entries with
      | .error e => .error e files
      | .ok c => .ok ((c.chosen l.entries).map (Entry.timed elapsed)) files := by
  simp only [get, bind, EStateM.bind, readText_eq h, select_eq]
  cases t.choose target l.entries with
  | error e => rfl
  | ok c =>
    simp only [Except.map, Disk.ofExcept, pure, EStateM.pure, ← l.map_entry_selected,
      List.map_map]
    rfl

/-- Writes the file with another text in the place of each chosen record, and gives an answer. If
nothing is chosen, nothing is written. -/
def rewrite (t : Table) (l : Layout t.schema) (c : Choice) (text : Entry → List Char)
    (answer : EntrySet) : Disk EntrySet :=
  if c.chosen l.entries = [] then return []
  else do
    t.replaceContent (l.replaced c text)
    return answer

/-- Removing answers the chosen entries and writes the file without their records. -/
theorem remove_eq (l : Layout t.schema) (h : files.readText t.path = .ok (String.ofList l.chars))
    (target : Target) :
    t.remove target files =
      match t.choose target l.entries with
      | .error e => .error e files
      | .ok c => t.rewrite l c (fun _ => []) (c.chosen l.entries) files := by
  have hselect := select_eq t l target
  cases hchoose : t.choose target l.entries with
  | error e =>
    rw [hchoose] at hselect
    simp only [remove, bind, EStateM.bind, readText_eq h, hselect]
    rfl
  | ok c =>
    have hentries := l.map_entry_selected c
    have hsplice := l.splice c fun _ => []
    rw [hchoose] at hselect
    simp only [Except.map] at hselect
    simp only [remove, rewrite, bind, EStateM.bind, readText_eq h, hselect, Disk.ofExcept,
      ← hentries, ← hsplice, String.toList_ofList]
    cases selectedAt l.start (c.mark l.rows) <;> rfl

/-- Setting answers the chosen entries with the new values and writes the file with their new
records. The values are checked first. -/
theorem set_eq (l : Layout t.schema) (h : files.readText t.path = .ok (String.ofList l.chars))
    (elapsed : UInt64) (target : Target) (values : List Literal) :
    t.set elapsed target values files =
      match coerceRow t.schema values with
      | .error e => .error e files
      | .ok _ =>
        match t.choose target l.entries with
        | .error e => .error e files
        | .ok c =>
          t.rewrite l c (fun e => (e.overwrite values).encodeChars)
            ((c.chosen l.entries).map fun e => (e.overwrite values).timed elapsed) files := by
  cases hrow : coerceRow t.schema values with
  | error e =>
    simp only [set, bind, EStateM.bind, hrow]
    rfl
  | ok row =>
    have hselect := select_eq t l target
    cases hchoose : t.choose target l.entries with
    | error e =>
      rw [hchoose] at hselect
      simp only [set, bind, EStateM.bind, hrow, Disk.ofExcept, readText_eq h, hselect]
      rfl
    | ok c =>
      have hentries := l.map_entry_selected c
      have hsplice := l.splice c fun e => (e.overwrite values).encodeChars
      rw [hchoose] at hselect
      simp only [Except.map] at hselect
      have hfits := fits_of_mem_selectedAt l.start (c.mark l.rows)
      generalize selectedAt l.start (c.mark l.rows) = selected at *
      -- the values are the same only in entries that fit the schema, as those of a file do
      have hupdated : selected.map (fun s => { s with entry := replaceValues row s.entry }) =
          selected.map (fun s => { s with entry := s.entry.overwrite values }) :=
        List.map_congr_left fun s hs => by rw [replaceValues_eq_overwrite hrow (hfits s hs)]
      simp only [set, rewrite, bind, EStateM.bind, hrow, readText_eq h, hselect, Disk.ofExcept,
        hupdated, ← hentries, ← hsplice, String.toList_ofList, List.map_map]
      cases selected <;> rfl

/-- Values are set if they suit the columns and the target can be found. -/
theorem set_eq_ok_iff {l : Layout t.schema} {files' : FileTree} {elapsed : UInt64} {target : Target}
    {values : List Literal} {answer : EntrySet}
    (hread : files.readText t.path = .ok (String.ofList l.chars)) :
    t.set elapsed target values files = .ok answer files' ↔
      ∃ row choice, coerceRow t.schema values = .ok row ∧
        t.choose target l.entries = .ok choice ∧
        t.rewrite l choice (fun e => (e.overwrite values).encodeChars)
          ((choice.chosen l.entries).map fun e => (e.overwrite values).timed elapsed) files =
            .ok answer files' := by
  rw [set_eq l hread]
  cases coerceRow t.schema values with
  | error e => exact ⟨by rintro ⟨⟩, by rintro ⟨_, _, ⟨⟩, -⟩⟩
  | ok row =>
    cases t.choose target l.entries with
    | error e => exact ⟨by rintro ⟨⟩, by rintro ⟨_, _, -, ⟨⟩, -⟩⟩
    | ok choice =>
      refine ⟨fun h => ⟨row, choice, rfl, rfl, h⟩, ?_⟩
      rintro ⟨_, _, -, ⟨⟩, h⟩
      exact h

/-! ## Files that can be written -/

/-- Rewriting a stored file succeeds. -/
theorem Stores.rewrite {l : Layout t.schema} (h : t.Stores files l.chars) (choice : Choice)
    (text : Entry → List Char) (answer : EntrySet)
    (hanswer : choice.chosen l.entries = [] → answer = []) :
    ∃ files', t.rewrite l choice text answer files = .ok answer files' ∧
      t.Stores files' (l.replaced choice text) := by
  unfold Table.rewrite
  split
  -- where nothing is chosen the file is not written, but it is what would be written
  · next hnil =>
    refine ⟨files, ?_, ?_⟩
    · rw [hanswer hnil]
      rfl
    · rwa [Layout.replaced_of_chosen_nil hnil]
  · obtain ⟨files', hreplace, hstores⟩ := h.replaceContent (l.replaced choice text)
    refine ⟨files', ?_, hstores⟩
    simp only [bind, EStateM.bind, hreplace]
    rfl

/-- Removing the entries that a target chooses succeeds. -/
theorem Stores.remove {l : Layout t.schema} (h : t.Stores files l.chars) {target : Target}
    {choice : Choice} (hchoose : t.choose target l.entries = .ok choice) :
    ∃ files', t.remove target files = .ok (choice.chosen l.entries) files' ∧
      t.Stores files' (l.replaced choice fun _ => []) := by
  obtain ⟨files', hrewrite, hstores⟩ := h.rewrite choice (fun _ => [])
    (choice.chosen l.entries) id
  refine ⟨files', ?_, hstores⟩
  rw [remove_eq l h.readText, hchoose]
  exact hrewrite

/-- Setting values in the entries that a target chooses succeeds. -/
theorem Stores.set {l : Layout t.schema} (h : t.Stores files l.chars) (elapsed : UInt64)
    {target : Target} {values : List Literal} {row : List (Option Value)} {choice : Choice}
    (hrow : coerceRow t.schema values = .ok row)
    (hchoose : t.choose target l.entries = .ok choice) :
    ∃ files', t.set elapsed target values files =
        .ok ((choice.chosen l.entries).map fun e => (e.overwrite values).timed elapsed) files' ∧
      t.Stores files' (l.replaced choice fun e => (e.overwrite values).encodeChars) := by
  obtain ⟨files', hrewrite, hstores⟩ := h.rewrite choice
    (fun e => (e.overwrite values).encodeChars)
    ((choice.chosen l.entries).map fun e => (e.overwrite values).timed elapsed)
    (fun hnil => by rw [hnil]; rfl)
  refine ⟨files', ?_, hstores⟩
  rw [set_eq l h.readText, hrow, hchoose]
  exact hrewrite

end Table

end RecordStore

import RecordStore.Proofs.Query.Values
import RecordStore.Proofs.Store.Execution
import RecordStore.Proofs.Table.Columns
import RecordStore.Proofs.Table.Splicing

/-!
# Values do not escape from their quotes

A program that puts values into the text of a query gets just the query it meant, whatever the
values hold: line ends, `;`, brackets, quotes of one kind, or whole statements. This goes through
every layer, from the cut of the text into statements to the bytes of the file.

- `Store.Serves`: a store with a table whose file can be read;
- `parse_addText`, `parse_getText`: the texts are one query each;
- `newRow_literals`: the values of the row are those that were spelled;
- `Store.execute_addText`, `Store.execute_getText`: the runs;
- `Store.execute_quotes`: the main result.
-/

namespace RecordStore

/-! ## The texts -/

/-- The text that adds a row of values to a table. -/
def addText (row : List Value) (table : String) : String :=
  "ADD [" ++ ", ".intercalate (row.map Value.spelling) ++ "] IN " ++ table

/-- The text that asks for the entries of a table in which a column has a text as its value. -/
def getText (column value table : String) : String :=
  "GET WHERE " ++ column ++ " IS " ++ (Literal.ofQuoted value).render ++ " IN " ++ table

/-- Whether a value can be spelled for a column. -/
def Value.SuitsColumn (v : Value) (column : Column) : Prop :=
  v.storageType = column.type ∧ v.IsSpellable

/-- A row with a value for each column of a schema. -/
def SuitsSchema (row : List Value) (schema : Schema) : Prop :=
  List.Forall₂ Value.SuitsColumn row schema.columns

theorem SuitsSchema.isSpellable {row : List Value} {schema : Schema} (h : SuitsSchema row schema) :
    ∀ v ∈ row, v.IsSpellable := by
  intro v hv
  obtain ⟨i, hi, rfl⟩ := List.mem_iff_getElem.1 hv
  exact (List.Forall₂.get h hi (List.Forall₂.length_eq h ▸ hi)).2

/-- A valid schema has a column, so a row that suits it has a value. -/
theorem SuitsSchema.ne_nil {row : List Value} {schema : Schema} (h : SuitsSchema row schema)
    (hschema : schema.check = .ok ()) : row ≠ [] := by
  rintro rfl
  exact Schema.columns_ne_nil_of_check hschema (List.forall₂_nil_left_iff.1 h)

/-- The text that adds a row is read as the query that adds it, and as nothing else. -/
theorem parse_addText {row : List Value} {table : String} (htable : Name.check table = .ok ())
    (hne : row ≠ []) (hrow : ∀ v ∈ row, v.IsSpellable) :
    QuerySet.parse (addText row table) = .ok [.add table (row.map Value.literal)] := by
  have hrender : addText row table = (Query.add table (row.map Value.literal)).render := by
    have hvalues : (row.map Value.literal).map Literal.render = row.map Value.spelling := by
      rw [List.map_map]
      exact List.map_congr_left fun v _ => v.render_literal
    refine String.toList_inj.1 ?_
    simp [addText, Query.render, renderValues, hvalues]
  have hexpressible : (Query.add table (row.map Value.literal)).Expressible := by
    refine ⟨Name.isWord_of_check htable, by simp [hne], ?_⟩
    exact List.forall_mem_map.2 fun v hv => Value.isListed_literal (hrow v hv)
  have hwhole : Whole (addText row table).toList := by
    have hspellings : ∀ part ∈ (row.map Value.spelling).map String.toList, Whole part := by
      simp only [List.forall_mem_map]
      exact fun v hv => Value.whole_spelling (hrow v hv)
    simp only [addText, String.toList_append, String.toList_intercalate]
    exact (((whole_of_all (by decide)).append (whole_intercalate (whole_of_all (by decide))
      hspellings)).append (whole_of_all (by decide))).append (whole_of_check htable)
  refine parse_of_whole hwhole ?_
  rw [hrender]
  exact parse_of_expressible hexpressible

/-- The text that asks for a value is read as the query that asks for it, and as nothing else. -/
theorem parse_getText {column value table : String} (hcolumn : Name.check column = .ok ())
    (hvalue : IsQuotable value) (htable : Name.check table = .ok ()) :
    QuerySet.parse (getText column value table) =
      .ok [.get table (.dependencies [⟨column, .equals, .ofQuoted value⟩])] := by
  have hrender : getText column value table =
      (Query.get table (.dependencies [⟨column, .equals, .ofQuoted value⟩])).render := by
    refine String.toList_inj.1 ?_
    simp [getText, Query.render, Target.renderSpaced, Target.render, Dependency.render,
      Comparator.keyword, Keyword.text]
  have hexpressible :
      (Query.get table (.dependencies [⟨column, .equals, .ofQuoted value⟩])).Expressible := by
    refine ⟨Name.isWord_of_check htable, List.forall_mem_singleton.2 ?_⟩
    exact ⟨Name.isWord_of_check hcolumn, hvalue⟩
  have hwhole : Whole (getText column value table).toList := by
    simp only [getText, String.toList_append]
    exact (((((whole_of_all (by decide)).append (whole_of_check hcolumn)).append
      (whole_of_all (by decide))).append (whole_render_ofQuoted hvalue)).append
      (whole_of_all (by decide))).append (whole_of_check htable)
  refine parse_of_whole hwhole ?_
  rw [hrender]
  exact parse_of_expressible hexpressible

/-! ## The row -/

theorem coerceRow_literals {schema : Schema} {row : List Value} (h : SuitsSchema row schema) :
    Table.coerceRow schema (row.map Value.literal) = .ok (row.map some) := by
  refine coerceRow_eq_ok_iff.2 ⟨?_, ?_⟩
  · rw [List.length_map, List.Forall₂.length_eq h]
  · unfold SuitsSchema at h
    generalize schema.columns = columns at h
    induction h with
    | nil => rfl
    | @cons v column row columns hv _ ih =>
      obtain ⟨htype, hspellable⟩ := hv
      refine mapM_cons_eq_ok_iff.2 ⟨some v, row.map some, rfl, ?_, ih⟩
      refine coerceColumn_eq_ok_iff.2 (.inr ⟨Value.isWildcard_literal hspellable, v, ?_, rfl⟩)
      rw [← htype]
      exact Value.coerce?_literal hspellable

/-- The row that is added consists of the values that were spelled. -/
theorem newRow_literals {schema : Schema} {row : List Value} (h : SuitsSchema row schema) :
    Table.newRow schema (row.map Value.literal) =
      .ok ((schema.columns.map (·.name)).zip row) := by
  refine bind_eq_ok_iff.2 ⟨_, coerceRow_literals h, ?_⟩
  unfold SuitsSchema at h
  generalize schema.columns = columns at h
  induction h with
  | nil => rfl
  | cons _ _ ih => exact mapM_cons_eq_ok_iff.2 ⟨_, _, rfl, rfl, ih⟩

/-- The entry that a row becomes. -/
def Schema.entry (schema : Schema) (id : String) (row : List Value) : Entry where
  id := id
  data := (schema.columns.map (·.name)).zip row

/-! ## The runs -/

/-- A store with a table that is not dropped and whose file can be read: `text` is the text of the
file, and `entries` are the entries in it. -/
structure Store.Serves (s : Store) (t : Table) (text : String) (entries : List Entry) : Prop where
  registered : s.database.find? t.name = some t
  live : t.dropped = false
  name : Name.check t.name = .ok ()
  schema : t.schema.check = .ok ()
  read : s.files.readText t.path = .ok text
  decoded : readEntries t.schema text = .ok entries

namespace Store.Serves

variable {s : Store} {t : Table} {text : String} {entries : List Entry}

theorem query_eq_run (h : s.Serves t text entries) (c : Circumstances) (q : Query) :
    t.query c q = t.run c q := Table.query_of_live h.live c q

/-- The text that adds a row adds it. -/
theorem execute_addText (h : s.Serves t text entries) (circumstances : Nat → Circumstances)
    {row : List Value} (hrow : SuitsSchema row t.schema) :
    ∃ files', s.files.append t.path
        (t.schema.entry (circumstances 0).newId row).encode.toUTF8 = .ok files' ∧
      files'.readText t.path =
        .ok (text ++ (t.schema.entry (circumstances 0).newId row).encode) ∧
      Store.execute circumstances (addText row t.name) s =
        .ok [t.schema.entry (circumstances 0).newId row]
          { database := s.database.replace t, files := files' } := by
  have hne := hrow.ne_nil h.schema
  obtain ⟨files', happend, hread⟩ :=
    FileTree.exists_append h.read (t.schema.entry (circumstances 0).newId row).encode
  refine ⟨files', happend, hread, ?_⟩
  refine Store.execute_of_parse (parse_addText h.name hne hrow.isSpellable) h.registered ?_
  have hadd := Table.add_eq (newRow_literals hrow) happend
  rw [h.query_eq_run]
  simp only [Table.run, bind, EStateM.bind, hadd]
  rfl

/-- The text that asks for a value finds the entries that have it. -/
theorem execute_getText (h : s.Serves t text entries) (circumstances : Nat → Circumstances)
    {column : Column} (hcolumn : column ∈ t.schema.columns) {value : String}
    (hvalue : IsQuotable value) :
    Store.execute circumstances (getText column.name value t.name) s =
      .ok ((entries.filter fun e => (e.get? column.name).map Value.text = some value).map
          (·.timed (circumstances 0).elapsed))
        { database := s.database.replace t, files := s.files } := by
  have hname := Schema.name_of_check h.schema column hcolumn
  obtain ⟨header, hheader, -⟩ := bind_eq_ok_iff.1 h.decoded
  obtain ⟨l, hchars, -, hentries⟩ := exists_layout hheader h.decoded
  have hfits : ∀ e ∈ l.entries, e.Fits t.schema := by
    refine List.forall_mem_map.2 fun row _ => ?_
    exact row.holds.isStored.fits
  obtain ⟨choice, hchoose, hchosen⟩ := Table.choose_quoted hcolumn value hfits
  have hread : s.files.readText t.path = .ok (String.ofList l.chars) := by
    rw [hchars, String.ofList_toList]
    exact h.read
  refine Store.execute_of_parse (parse_getText hname hvalue h.name) h.registered ?_
  rw [h.query_eq_run]
  simp only [Table.run, bind, EStateM.bind, Table.get_eq l hread, hchoose]
  rw [hchosen, hentries]
  rfl

end Store.Serves

/-- Values do not escape from their quotes. For every row that suits the schema of a table, the text
that adds it is one query; it answers that row and adds its record at the end of the file. For every
column and every text without one of the two quotes, the text that asks for it answers, in file
order, the entries in which the column has that text, and leaves every file alone. No lookup of a
table changes. -/
theorem Store.execute_quotes {s : Store} {t : Table} {text : String} {entries : List Entry}
    (h : s.Serves t text entries) (circumstances : Nat → Circumstances) :
    (∀ row : List Value, SuitsSchema row t.schema → ∃ s' : Store,
        QuerySet.parse (addText row t.name) = .ok [.add t.name (row.map Value.literal)] ∧
          Store.execute circumstances (addText row t.name) s =
            .ok [t.schema.entry (circumstances 0).newId row] s' ∧
          s.files.append t.path (t.schema.entry (circumstances 0).newId row).encode.toUTF8 =
            .ok s'.files ∧
          s'.files.readText t.path =
            .ok (text ++ (t.schema.entry (circumstances 0).newId row).encode) ∧
          ∀ name, s'.database.find? name = s.database.find? name) ∧
      ∀ column ∈ t.schema.columns, ∀ value : String, IsQuotable value → ∃ s' : Store,
        Store.execute circumstances (getText column.name value t.name) s =
            .ok ((entries.filter fun e => (e.get? column.name).map Value.text = some value).map
              (·.timed (circumstances 0).elapsed)) s' ∧
          s'.files = s.files ∧
          ∀ name, s'.database.find? name = s.database.find? name := by
  constructor
  · intro row hrow
    have hne := hrow.ne_nil h.schema
    obtain ⟨files', happend, hread, hexecute⟩ := h.execute_addText circumstances hrow
    exact ⟨_, parse_addText h.name hne hrow.isSpellable, hexecute, happend, hread,
      Database.find?_replace h.registered⟩
  · intro column hcolumn value hvalue
    exact ⟨_, h.execute_getText circumstances hcolumn hvalue, rfl,
      Database.find?_replace h.registered⟩

set_option maxRecDepth 4000 in
/-- A string that would end its value, its statement and its list if it were not between quotes. -/
theorem Store.execute_quotes_line_end :
    ∃ (s : Store) (t : Table) (added : Store) (asked : Store),
      s.database.find? "T" = some t ∧ s.files.readText t.path =
          .ok "[T,2:A,0:N]\x7ba;S:x,I:1\x7d" ∧
        Store.execute (fun _ => ⟨"b", 7⟩) "ADD [\"';\n], DROP T\", -5] IN T" s =
          .ok [{ id := "b", data := [("A", .str "';\n], DROP T"), ("N", .int (-5))] }] added ∧
        added.files.readText t.path =
          .ok "[T,2:A,0:N]\x7ba;S:x,I:1\x7d\x7bb;S:';\n]\\, DROP T,I:-5\x7d" ∧
        Store.execute (fun _ => ⟨"b", 7⟩) "GET WHERE N IS '1' IN T" s =
          .ok [{ id := "a", data := [("A", .str "x"), ("N", .int 1)], queryTime := some 7 }]
            asked := by
  let t : Table := { name := "T", schema := ⟨[⟨"A", .string⟩, ⟨"N", .integer⟩]⟩, path := "t" }
  let text : String := "[T,2:A,0:N]\x7ba;S:x,I:1\x7d"
  let s : Store := {
    database := { config := { dataDir := "" }, tables := [t] }
    files := ⟨[(["t"], .file text.toUTF8)], []⟩ }
  have hleads : s.files.LeadsTo t.path ["t"] := ⟨by decide, by decide, by decide⟩
  have hread : s.files.readText t.path = .ok text := FileTree.readText_eq_ok hleads rfl
  have hserves : s.Serves t text [{ id := "a", data := [("A", .str "x"), ("N", .int 1)] }] :=
    ⟨rfl, rfl, by decide, by decide, hread, by cbv⟩
  obtain ⟨hadds, hasks⟩ := Store.execute_quotes hserves fun _ => ⟨"b", 7⟩
  have hrow : SuitsSchema [.str "';\n], DROP T", .int (-5)] t.schema :=
    .cons ⟨rfl, by decide⟩ (.cons ⟨rfl, trivial⟩ .nil)
  obtain ⟨added, -, hadd, -, hadded, -⟩ := hadds _ hrow
  obtain ⟨asked, hask, -, -⟩ := hasks ⟨"N", .integer⟩ (by decide) "1" (by decide)
  have haddText : addText [.str "';\n], DROP T", .int (-5)] t.name =
      "ADD [\"';\n], DROP T\", -5] IN T" := by cbv
  have haskText : getText "N" "1" t.name = "GET WHERE N IS '1' IN T" := by cbv
  refine ⟨s, t, added, asked, rfl, hread, ?_, ?_, ?_⟩
  · rw [← haddText]
    exact hadd
  · rw [hadded]
    cbv
  · rw [← haskText]
    exact hask

end RecordStore

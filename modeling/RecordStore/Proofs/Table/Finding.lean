import RecordStore.Proofs.Query.Literals
import RecordStore.Proofs.Store.Typing
import RecordStore.Proofs.Table.Where

/-!
# A value is found by its literal

Literals are turned into values when they are written into a table, and into operands when values
are compared with them. The two readings agree: what a literal is stored as, it is compared as, and
the stored value is equal to it. So whatever was added is found with the literals that it was added
with.

- `Value.operand`: what a value is compared as;
- `Operand.ofLiteral_of_coerce?`, `Operand.equals_operand`: the two readings;
- `Condition.ofDependency_number_eq_ok_iff`: the literals that numbers are compared with;
- `readEntries_append`: a record at the end of a readable file;
- `newRow_eq_ok_iff`, `Table.exists_query_add_iff`: when an entry is added, and which;
- `Table.query_get_of_add`, `Table.query_get_not_of_add`: the queries that find it, and those that
  do not;
- `query_finds_added`: all of it.
-/

namespace RecordStore

/-! ## Operands -/

/-- What a value is compared as if its literal stands in a dependency. -/
def Value.operand : Value → Operand
  | int n => .int n
  | dec x => .dec x
  | str s => .text s

/-- A finite decimal is near to itself. -/
theorem near_self {x : Float} (h : x.isFinite = true) : near x x = true := by
  rw [near, Numeral.sub_self_of_isFinite h]
  decide

/-- A literal spells a number if it is a value of one of the two types. -/
theorem Literal.number?_eq_some_iff {l : Literal} {v : Value} :
    l.number? = some v ↔ l.coerce? .integer = some v ∨ l.coerce? .decimal = some v := by
  rw [number?, Option.or_eq_some_iff]
  constructor
  · exact Or.imp_right And.right
  · rintro (h | h)
    · exact .inl h
    · refine .inr ⟨Option.eq_none_iff_forall_ne_some.2 fun w hw => ?_, h⟩
      cases (classify_of_coerce? h).symm.trans (classify_of_coerce? hw)

namespace Operand

variable {l : Literal} {type : StorageType} {v : Value}

/-- Only a number becomes an operand among numbers, and it stays what it is. -/
theorem ofNumeral_eq_ok_iff {o : Operand} :
    ofNumeral l type = .ok o ↔ ∃ v, l.number? = some v ∧ o = v.operand := by
  obtain ⟨n, hnumber, hoperand⟩ | ⟨x, hnumber, hoperand⟩ | ⟨hnumber, hoperand⟩ :=
    ofNumeral_cases l type
  · simp [hnumber, hoperand, Value.operand, eq_comm]
  · simp [hnumber, hoperand, Value.operand, eq_comm]
  · simp [hnumber, hoperand]

/-- What a literal is stored as in a column, it is compared as. -/
theorem ofLiteral_of_coerce? (h : l.coerce? type = some v) : ofLiteral l type = .ok v.operand := by
  have hclassify := Literal.classify_of_coerce? h
  cases type with
  | string =>
    rw [Literal.coerce?, if_neg (not_not.2 hclassify)] at h
    cases h
    rw [ofLiteral, if_pos (by rw [Bool.or_eq_true]; exact .inr rfl)]
    rfl
  | integer | decimal =>
    -- a quoted literal is a string
    have hbare : l.quoted = false := by
      by_contra hquoted
      rw [Literal.classify, if_pos (Bool.not_eq_false _ ▸ hquoted)] at hclassify
      cases hclassify
    rw [ofLiteral, hbare, if_neg (by decide)]
    refine ofNumeral_eq_ok_iff.2 ⟨v, Literal.number?_eq_some_iff.2 ?_, rfl⟩
    first
      | exact .inl h
      | exact .inr h

/-- What a literal is stored as equals what it is compared as. -/
theorem equals_operand (h : l.coerce? type = some v) : v.operand.equals v = true := by
  cases v with
  | int n => exact beq_self_eq_true n
  | dec x => exact near_self ((gives_of_coerce? h).2 x rfl)
  | str s => exact beq_self_eq_true s

end Operand

/-! ## Conditions -/

namespace Condition

variable {schema : Schema} {d : Dependency} {i : Nat} {column : Column} {v : Value}

/-- A dependency that asks for a whole value is compared with the operand of its literal. -/
theorem ofDependency_of_equality (hfind : schema.find? d.column = some (i, column))
    (hcomparator : d.comparator = .equals ∨ d.comparator = .notEquals) :
    ofDependency schema d =
      (Operand.ofLiteral d.value column.type).map fun o => ⟨i, d.comparator, o⟩ := by
  obtain ⟨name, comparator, l⟩ := d
  rw [ofDependency]
  simp only [hfind]
  obtain rfl | rfl : comparator = .equals ∨ comparator = .notEquals := hcomparator
  · rfl
  · rfl

/-- It is compared with the value of its column that the literal stands for, if there is one. -/
theorem ofDependency_of_coerce? (hfind : schema.find? d.column = some (i, column))
    (hcomparator : d.comparator = .equals ∨ d.comparator = .notEquals)
    (h : d.value.coerce? column.type = some v) :
    ofDependency schema d = .ok ⟨i, d.comparator, v.operand⟩ := by
  rw [ofDependency_of_equality hfind hcomparator, Operand.ofLiteral_of_coerce? h]
  rfl

/-- The value is accepted by the one comparator and refused by the other. -/
theorem accepts_operand {l : Literal} {type : StorageType} {comparator : Comparator}
    (hcomparator : comparator = .equals ∨ comparator = .notEquals)
    (h : l.coerce? type = some v) (i : Nat) :
    (Condition.mk i comparator v.operand).accepts v = (comparator == .equals) := by
  have hequals := Operand.equals_operand h
  obtain rfl | rfl := hcomparator
  · exact hequals
  · show (!v.operand.equals v) = false
    rw [hequals]
    rfl

/-- A bare literal is compared with numbers exactly if it is a value of one of the two types of
numbers, and as that value. -/
theorem ofDependency_number_eq_ok_iff {c : Condition}
    (hfind : schema.find? d.column = some (i, column)) (hnumeric : column.type.isNumeric = true)
    (hcomparator : d.comparator = .equals ∨ d.comparator = .notEquals)
    (hbare : d.value.quoted = false) :
    ofDependency schema d = .ok c ↔
      ∃ v, (d.value.coerce? .integer = some v ∨ d.value.coerce? .decimal = some v) ∧
        c = ⟨i, d.comparator, v.operand⟩ := by
  have hliteral : Operand.ofLiteral d.value column.type =
      Operand.ofNumeral d.value column.type := by
    rw [Operand.ofLiteral, hbare, hnumeric]
    rfl
  rw [ofDependency_of_equality hfind hcomparator, hliteral, map_eq_ok_iff]
  constructor
  · rintro ⟨o, ho, rfl⟩
    obtain ⟨v, hv, rfl⟩ := Operand.ofNumeral_eq_ok_iff.1 ho
    exact ⟨v, Literal.number?_eq_some_iff.1 hv, rfl⟩
  · rintro ⟨v, hv, rfl⟩
    exact ⟨v.operand, Operand.ofNumeral_eq_ok_iff.2 ⟨v, Literal.number?_eq_some_iff.2 hv, rfl⟩, rfl⟩

end Condition

/-! ## Entries -/

/-- Each literal is a value of a new entry: no wildcard, and the value in its column. -/
def Entry.IsNew (e : Entry) (values : List Literal) : Prop :=
  List.Forall₂ (fun (l : Literal) v => l.isWildcard = false ∧ l.coerce? v.storageType = some v)
    values e.values

/-- A dependency that asks for the literal of a new entry is right, and is satisfied by the entry if
it asks for a value that equals the literal, and not if it asks for any other. -/
theorem Entry.IsNew.holds {schema : Schema} {e : Entry} {values : List Literal} {d : Dependency}
    {i : Nat} {column : Column} (h : e.IsNew values) (he : e.Fits schema)
    (hfind : schema.find? d.column = some (i, column)) (hvalue : values[i]? = some d.value)
    (hcomparator : d.comparator = .equals ∨ d.comparator = .notEquals) :
    d.fault? schema = none ∧ d.holds e = (d.comparator == .equals) := by
  obtain ⟨p, hp, -, htype⟩ := he.exists_value hfind
  have hvalues : e.values[i]? = some p.2 := by
    rw [Entry.values, List.getElem?_map, hp]
    rfl
  have hmem : (d.value, p.2) ∈ values.zip e.values :=
    List.mem_iff_getElem?.2 ⟨i, List.getElem?_zip_eq_some.2 ⟨hvalue, hvalues⟩⟩
  have hcoerce : d.value.coerce? column.type = some p.2 := by
    rw [← htype]
    exact (List.forall₂_zip h hmem).2
  have hcondition := Condition.ofDependency_of_coerce? hfind hcomparator hcoerce
  obtain ⟨fault, -, hfault⟩ | ⟨hnone, c, hc, hholds⟩ := Condition.ofDependency_cases schema d
  · cases hfault.symm.trans hcondition
  · cases hc.symm.trans hcondition
    refine ⟨hnone, (hholds e he).symm.trans ?_⟩
    rw [Condition.holds]
    simp only [hp]
    exact Condition.accepts_operand hcomparator hcoerce i

/-! ## Adding -/

/-- A new row has the columns of the schema and a value for each literal. -/
theorem newRow_eq_ok_iff {schema : Schema} {values : List Literal} {data : List (String × Value)}
    (id : String) :
    Table.newRow schema values = .ok data ↔
      Entry.Fits { id, data } schema ∧ Entry.IsNew { id, data } values := by
  constructor
  · intro h
    obtain ⟨hwild, htakes⟩ := takes_of_newRow h id
    refine ⟨fits_of_newRow h id, List.forall₂_iff_zip.2 ⟨htakes.length_eq, fun {l v} hmem => ?_⟩⟩
    have hl := hwild l (List.of_mem_zip hmem).1
    exact ⟨hl, (List.forall₂_zip htakes hmem hl).1⟩
  · rintro ⟨hfits, hnew⟩
    have hcolumns : schema.columns = data.map fun p => ⟨p.1, p.2.storageType⟩ := hfits.symm
    replace hnew : List.Forall₂ (fun (l : Literal) p =>
        l.isWildcard = false ∧ l.coerce? p.2.storageType = some p.2) values data :=
      List.forall₂_map_right_iff.1 hnew
    have hlength : values.length = schema.columns.length := by
      rw [hcolumns, List.length_map, hnew.length_eq]
    refine bind_eq_ok_iff.2 ⟨data.map (some ·.2), coerceRow_eq_ok_iff.2 ⟨hlength, ?_⟩, ?_⟩
    all_goals
      rw [hcolumns]
      clear hfits hcolumns hlength
      -- literals and values are walked along together
      induction hnew with
      | nil => rfl
      | @cons l p values data hl _ ih =>
        refine mapM_cons_eq_ok_iff.2 ⟨_, _, rfl, ?_, ih⟩
        first
          | exact coerceColumn_eq_ok_iff.2 (.inr ⟨hl.1, p.2, hl.2, rfl⟩)
          | rfl

/-- A record at the end of a file that can be read is read as one more entry. -/
theorem readEntries_append {schema : Schema} {text : String} {entries : List Entry} {e : Entry}
    (hentries : readEntries schema text = .ok entries) (he : e.IsStored schema) :
    readEntries schema (text ++ e.encode) = .ok (entries ++ [e]) := by
  obtain ⟨header, hheader, -⟩ := bind_eq_ok_iff.1 hentries
  obtain ⟨l, hchars, -, rfl⟩ := exists_layout hheader hentries
  let row : Stored schema :=
    { record := e.record he.isRecordId, gap := [], blank := List.forall_mem_nil _
      entry := e, holds := he.holds_record }
  let l' : Layout schema := { l with rows := l.rows ++ [row] }
  have hrow : row.chars = e.encodeChars := List.append_nil _
  have hchars' : l'.chars = (text ++ e.encode).toList := by
    rw [String.toList_append, ← hchars, Entry.encode, String.toList_ofList, ← hrow]
    simp [l', Layout.chars]
  have hread := l'.readEntries_chars
  rw [hchars', String.ofList_toList] at hread
  rw [hread]
  simp [l', row, Layout.entries]

namespace Table

variable {t t' : Table} {c : Circumstances} {table text : String} {values : List Literal}
  {files files' : FileTree} {answer : EntrySet}

theorem add_eq_ok_iff {newId : String} :
    t.add newId values files = .ok answer files' ↔
      ∃ e, answer = [e] ∧ e.id = newId ∧ e.queryTime = none ∧ e.Fits t.schema ∧ e.IsNew values ∧
        files.append t.path e.encode.toUTF8 = .ok files' := by
  constructor
  · intro h
    obtain ⟨data, files₁, hnew, hrest⟩ := bind_run_eq_ok_iff.1 h
    obtain ⟨hrow, rfl⟩ := Disk.ofExcept_eq_ok_iff.1 hnew
    obtain ⟨⟨⟩, files₂, hchange, hreturn⟩ := bind_run_eq_ok_iff.1 hrest
    cases hreturn
    obtain ⟨hfits, hvalues⟩ := (newRow_eq_ok_iff newId).1 hrow
    exact ⟨_, rfl, rfl, rfl, hfits, hvalues, (Disk.change_eq_ok_iff _ _).1 hchange⟩
  · rintro ⟨⟨id, data, time⟩, rfl, rfl, rfl, hfits, hvalues, happend⟩
    exact add_eq ((newRow_eq_ok_iff id).2 ⟨hfits, hvalues⟩) happend

/-- An entry can be added to a table whose file can be read exactly if it has the columns of the
table and a value for each literal. -/
theorem exists_query_add_iff (hlive : t.dropped = false)
    (hread : files.readText t.path = .ok text) :
    (∃ files', t.query c (.add table values) files = .ok (answer, t') files') ↔
      ∃ e, answer = [e] ∧ t' = t ∧ e.id = c.newId ∧ e.queryTime = none ∧ e.Fits t.schema ∧
        e.IsNew values := by
  constructor
  · rintro ⟨files', h⟩
    obtain ⟨hadd, rfl⟩ := return_eq_ok_iff.1 (query_eq_ok_iff.1 h).2
    obtain ⟨e, rfl, hid, htime, hfits, hvalues, -⟩ := add_eq_ok_iff.1 hadd
    exact ⟨e, rfl, rfl, hid, htime, hfits, hvalues⟩
  · rintro ⟨e, rfl, rfl, hid, htime, hfits, hvalues⟩
    obtain ⟨files', happend, -⟩ := FileTree.exists_append hread e.encode
    have hadd := add_eq_ok_iff.2 ⟨e, rfl, hid, htime, hfits, hvalues, happend⟩
    exact ⟨files', query_eq_ok_iff.2 ⟨hlive, return_eq_ok_iff.2 ⟨hadd, rfl⟩⟩⟩

/-- The entry that was added is the last one in the file. -/
theorem exists_readEntries_of_add {entries : List Entry} {e : Entry}
    (hread : files.readText t.path = .ok text)
    (hentries : readEntries t.schema text = .ok entries) (hid : IsRecordId c.newId)
    (hrun : t.query c (.add table values) files = .ok ([e], t') files') :
    t' = t ∧ t.dropped = false ∧ e.Fits t.schema ∧ e.IsNew values ∧
      ∃ text', files'.readText t.path = .ok text' ∧
        readEntries t.schema text' = .ok (entries ++ [e]) := by
  obtain ⟨hlive, hrun⟩ := query_eq_ok_iff.1 hrun
  obtain ⟨hadd, rfl⟩ := return_eq_ok_iff.1 hrun
  obtain ⟨e, heq, hnewId, htime, hfits, hvalues, happend⟩ := add_eq_ok_iff.1 hadd
  cases heq
  have hstored : e.IsStored t'.schema := by
    refine ⟨hfits, hnewId ▸ hid, ?_⟩
    rw [Entry.stored, ← htime]
  obtain ⟨files'', happend', hread'⟩ := FileTree.exists_append hread e.encode
  cases happend.symm.trans happend'
  exact ⟨rfl, hlive, hfits, hvalues, _, hread', readEntries_append hentries hstored⟩

/-- What was added is found with any of the literals that it was added with, behind the entries that
were found before. -/
theorem query_get_of_add {entries : List Entry} {e : Entry} {ds : List Dependency}
    (hread : files.readText t.path = .ok text)
    (hentries : readEntries t.schema text = .ok entries) (hid : IsRecordId c.newId)
    (hrun : t.query c (.add table values) files = .ok ([e], t') files')
    (hds : ∀ d ∈ ds, d.comparator = .equals ∧
      ∃ i column, t.schema.find? d.column = some (i, column) ∧ values[i]? = some d.value)
    (c' : Circumstances) (table' : String) :
    t.query c' (.get table' (.dependencies ds)) files' =
      .ok ((entries.filter (fun e => ds.all (·.holds e)) ++ [e]).map (Entry.timed c'.elapsed), t)
        files' := by
  obtain ⟨-, hlive, hfits, hvalues, text', hread', hentries'⟩ :=
    exists_readEntries_of_add hread hentries hid hrun
  have hright (d) (hd : d ∈ ds) : d.fault? t.schema = none ∧ d.holds e = true := by
    obtain ⟨hcomparator, i, column, hfind, hvalue⟩ := hds d hd
    obtain ⟨hnone, hholds⟩ := hvalues.holds hfits hfind hvalue (.inl hcomparator)
    exact ⟨hnone, by rw [hholds, hcomparator]; rfl⟩
  have hlast : [e].filter (fun e => ds.all (·.holds e)) = [e] :=
    List.filter_eq_self.2 <| List.forall_mem_singleton.2 <|
      List.all_eq_true.2 fun d hd => (hright d hd).2
  rw [query_get_eq_filter hlive hread' hentries' fun d hd => (hright d hd).1, List.filter_append,
    hlast]

/-- It is not among the entries whose value is another than the literal. -/
theorem query_get_not_of_add {entries : List Entry} {e : Entry} {d : Dependency} {i : Nat}
    {column : Column} (hread : files.readText t.path = .ok text)
    (hentries : readEntries t.schema text = .ok entries) (hid : IsRecordId c.newId)
    (hrun : t.query c (.add table values) files = .ok ([e], t') files')
    (hcomparator : d.comparator = .notEquals)
    (hfind : t.schema.find? d.column = some (i, column)) (hvalue : values[i]? = some d.value)
    (c' : Circumstances) (table' : String) :
    t.query c' (.get table' (.dependencies [d])) files' =
      .ok ((entries.filter d.holds).map (Entry.timed c'.elapsed), t) files' := by
  obtain ⟨-, hlive, hfits, hvalues, text', hread', hentries'⟩ :=
    exists_readEntries_of_add hread hentries hid hrun
  obtain ⟨hnone, hholds⟩ := hvalues.holds hfits hfind hvalue (.inr hcomparator)
  rw [hcomparator] at hholds
  have hall (es : List Entry) :
      es.filter (fun e => [d].all (Dependency.holds · e)) = es.filter d.holds :=
    List.filter_congr fun _ _ => Bool.and_true _
  have hlast : [e].filter d.holds = [] :=
    List.filter_eq_nil_iff.2 (List.forall_mem_singleton.2 (Bool.eq_false_iff.1 hholds))
  rw [query_get_eq_filter hlive hread' hentries' (List.forall_mem_singleton.2 hnone), hall,
    List.filter_append, hlast, List.append_nil]

end Table

/-- A literal that is a value of a column matches the value it is stored as: `IS` accepts it and
`NOT` refuses it. A bare literal can be compared with numbers exactly if it is an integer or a
decimal, and it is compared as that number. An entry can be added to a table whose file can be read
exactly if each literal is a value of its column, and then it is answered by a query that asks for
any of its columns to be the literals that it was added with, behind the entries that were there
before, and not by one that asks for a column not to be its literal. -/
theorem query_finds_added :
    (∀ (schema : Schema) name i column (l : Literal) v,
      schema.find? name = some (i, column) → l.coerce? column.type = some v →
      ∃ yes no, Condition.ofDependency schema ⟨name, .equals, l⟩ = .ok yes ∧
        yes.accepts v = true ∧ Condition.ofDependency schema ⟨name, .notEquals, l⟩ = .ok no ∧
        no.accepts v = false) ∧
    (∀ (schema : Schema) (d : Dependency) i column c,
      schema.find? d.column = some (i, column) → column.type.isNumeric = true →
      (d.comparator = .equals ∨ d.comparator = .notEquals) → d.value.quoted = false →
      (Condition.ofDependency schema d = .ok c ↔
        ∃ v, (d.value.coerce? .integer = some v ∨ d.value.coerce? .decimal = some v) ∧
          c = ⟨i, d.comparator, v.operand⟩)) ∧
    ∀ (t : Table) (c : Circumstances) (table : String) (values : List Literal) (files : FileTree)
      (text : String) (entries : List Entry),
      t.dropped = false → files.readText t.path = .ok text →
      readEntries t.schema text = .ok entries → IsRecordId c.newId →
      (∀ answer t', (∃ files', t.query c (.add table values) files = .ok (answer, t') files') ↔
        ∃ e, answer = [e] ∧ t' = t ∧ e.id = c.newId ∧ e.queryTime = none ∧ e.Fits t.schema ∧
          e.IsNew values) ∧
      ∀ e t' files', t.query c (.add table values) files = .ok ([e], t') files' →
        (∀ c' table' ds, (∀ d ∈ ds, d.comparator = .equals ∧
            ∃ i column, t.schema.find? d.column = some (i, column) ∧ values[i]? = some d.value) →
          t.query c' (.get table' (.dependencies ds)) files' =
            .ok ((entries.filter (fun e => ds.all (·.holds e)) ++ [e]).map
              (Entry.timed c'.elapsed), t) files') ∧
        ∀ c' table' (d : Dependency) i column, d.comparator = .notEquals →
          t.schema.find? d.column = some (i, column) → values[i]? = some d.value →
          t.query c' (.get table' (.dependencies [d])) files' =
            .ok ((entries.filter d.holds).map (Entry.timed c'.elapsed), t) files' := by
  refine ⟨fun schema name i column l v hfind h =>
      ⟨⟨i, .equals, v.operand⟩, ⟨i, .notEquals, v.operand⟩, ?_, ?_, ?_, ?_⟩,
    fun schema d i column c hfind hnumeric hcomparator hbare => ?_,
    fun t c table values files text entries hlive hread hentries hid =>
      ⟨fun answer t' => ?_, fun e t' files' hrun => ⟨fun c' table' ds hds => ?_,
        fun c' table' d i column hcomparator hfind hvalue => ?_⟩⟩⟩
  · exact Condition.ofDependency_of_coerce? hfind (.inl rfl) h
  · exact Condition.accepts_operand (.inl rfl) h i
  · exact Condition.ofDependency_of_coerce? hfind (.inr rfl) h
  · exact Condition.accepts_operand (.inr rfl) h i
  · exact Condition.ofDependency_number_eq_ok_iff hfind hnumeric hcomparator hbare
  · exact Table.exists_query_add_iff hlive hread
  · exact Table.query_get_of_add hread hentries hid hrun hds c' table'
  · exact Table.query_get_not_of_add hread hentries hid hrun hcomparator hfind hvalue c' table'

/-- A decimal and a quoted number are added behind a record that no query wrote, and are found by
the same literals. -/
theorem query_finds_added_decimal :
    ∃ (t : Table) (files files' : FileTree) (a e : Entry) (ds : List Dependency),
      t = { name := "T", schema := ⟨[⟨"A", .decimal⟩, ⟨"B", .string⟩]⟩, path := "t" } ∧
      files = ⟨[(["t"], .file "[T,1:A,2:B] \x7ba;D:2.5,S:x\x7d".toUTF8)], []⟩ ∧
      ds = [⟨"B", .equals, .ofQuoted "07"⟩, ⟨"A", .equals, .bare "-.50"⟩] ∧
      (∃ c, Condition.ofDependency t.schema ⟨"A", .notEquals, .bare "7"⟩ = .ok c ∧
        c.operand = .int 7) ∧
      t.query ⟨"b", 0⟩ (.add "T" [.bare "-.50", .ofQuoted "07"]) files = .ok ([e], t) files' ∧
      t.query ⟨"", 3⟩ (.get "T" (.dependencies ds)) files' = .ok ([e.timed 3], t) files' ∧
      t.query ⟨"", 3⟩ (.get "T" (.dependencies [⟨"A", .notEquals, .bare "-.50"⟩])) files' =
        .ok ([a.timed 3], t) files' := by
  let schema : Schema := ⟨[⟨"A", .decimal⟩, ⟨"B", .string⟩]⟩
  let text : String := "[T,1:A,2:B] \x7ba;D:2.5,S:x\x7d"
  let t : Table := { name := "T", schema, path := "t" }
  let files : FileTree := ⟨[(["t"], .file text.toUTF8)], []⟩
  let a : Entry := { id := "a", data := [("A", .dec 2.5), ("B", .str "x")] }
  let e : Entry := { id := "b", data := [("A", .dec (-0.5)), ("B", .str "07")] }
  have hleads : files.LeadsTo t.path ["t"] := ⟨by decide, by decide, by decide⟩
  have hread : files.readText t.path = .ok text := FileTree.readText_eq_ok hleads rfl
  have hentries : readEntries schema text = .ok [a] := by decide +kernel
  obtain ⟨hmatch, hnumber, hadd⟩ := query_finds_added
  obtain ⟨hsucceeds, hget⟩ := hadd t ⟨"b", 0⟩ "T" [.bare "-.50", .ofQuoted "07"] files text [a] rfl
    hread hentries (by decide)
  obtain ⟨files', hrun⟩ := (hsucceeds [e] t).2
    ⟨e, rfl, rfl, rfl, rfl, by decide, .cons (by decide +kernel) (.cons (by decide) .nil)⟩
  obtain ⟨hyes, hno⟩ := hget e t files' hrun
  let ds : List Dependency := [⟨"B", .equals, .ofQuoted "07"⟩, ⟨"A", .equals, .bare "-.50"⟩]
  have hfound := hyes ⟨"", 3⟩ "T" ds <| List.forall_mem_cons.2
    ⟨⟨rfl, 1, _, rfl, rfl⟩, List.forall_mem_singleton.2 ⟨rfl, 0, _, rfl, rfl⟩⟩
  have hleft := hno ⟨"", 3⟩ "T" ⟨"A", .notEquals, .bare "-.50"⟩ 0 _ rfl rfl rfl
  -- the entry that was there before has other values
  have hbefore : [a].filter (fun e => ds.all (·.holds e)) = [] := by decide +kernel
  have hother : [a].filter (Dependency.holds ⟨"A", .notEquals, .bare "-.50"⟩) = [a] := by
    decide +kernel
  rw [hbefore] at hfound
  rw [hother] at hleft
  have hseven := (hnumber schema ⟨"A", .notEquals, .bare "7"⟩ 0 _ _ rfl rfl (.inr rfl) rfl).2
    ⟨.int 7, .inl (by decide), rfl⟩
  exact ⟨t, files, files', a, e, ds, rfl, rfl, rfl, ⟨_, hseven, rfl⟩, hrun, hfound, hleft⟩

end RecordStore

import RecordStore.Proofs.Table.Columns
import RecordStore.Proofs.Table.Reading

/-!
# What dependencies mean

A dependency can be understood without a schema and without a file: it is about the value that an
entry has under a name. It is at fault if there is no such column, or if a number is to be compared
with a literal that is none. The entries that a query answers are those that satisfy each of its
dependencies, and the first dependency that is at fault is reported before any record is read.

- `Dependency.fault?`: what is wrong with a dependency; `Dependency.holds`: what it says of an
  entry;
- `ofDependency_cases`: the condition that a dependency becomes, or the fault that it has;
- `Dependency.opposite`: the dependency that every other entry satisfies;
- `query_get_dependencies_eq_ok_iff`: when a query with dependencies succeeds, and its answer;
- `query_get_where`: all that dependencies do to a query that reads a table.
-/

namespace RecordStore

/-! ## Meaning -/

/-- The number that the spelling of a literal has: an integer in range, or a decimal that is
finite. -/
def Literal.number? (l : Literal) : Option Value := (l.coerce? .integer).or (l.coerce? .decimal)

/-- Whether two values are equal as numbers. Two integers are compared exactly. -/
def Value.sameNumber (v w : Value) : Bool :=
  match v, w with
  | .int m, .int n => m == n
  | v, w => v.number?.any fun x => w.number?.any (near x)

namespace Dependency

/-- Whether a dependency on a column of this type compares numbers. -/
def comparesNumbers (d : Dependency) (type : StorageType) : Bool :=
  (d.comparator == .equals || d.comparator == .notEquals) && type.isNumeric && !d.value.quoted

/-- What is wrong with a dependency. -/
def fault? (schema : Schema) (d : Dependency) : Option DependencyFault :=
  match schema.find? d.column with
  | none => some .noSuchColumn
  | some (_, column) =>
    if d.comparesNumbers column.type && d.value.number?.isNone then
      if d.value.classify = .string then some (.incomparable d.value.text column.type)
      else some (.outOfRange d.value.text)
    else none

/-- Whether a value is equal to the literal of a dependency: as a number, or as a text. -/
def equals (d : Dependency) (v : Value) : Bool :=
  if d.comparesNumbers v.storageType then d.value.number?.any v.sameNumber
  else v.text == d.value.text

/-- Whether the text of the literal is a run of consecutive characters in that of a value. -/
def occursIn (d : Dependency) (v : Value) : Bool := d.value.text.toList <:+: v.text.toList

/-- What a dependency says of a value. -/
def accepts (d : Dependency) (v : Value) : Bool :=
  match d.comparator with
  | .equals => d.equals v
  | .notEquals => !d.equals v
  | .contains => d.occursIn v
  | .notContains => !d.occursIn v

/-- What a dependency says of an entry, which has a value under the name of the column. -/
def holds (d : Dependency) (e : Entry) : Bool := (e.get? d.column).any d.accepts

end Dependency

/-- The comparator that accepts every other value. -/
def Comparator.opposite : Comparator → Comparator
  | equals => notEquals
  | notEquals => equals
  | contains => notContains
  | notContains => contains

/-- The dependency that every other entry satisfies. -/
def Dependency.opposite (d : Dependency) : Dependency :=
  { d with comparator := d.comparator.opposite }

/-! ## Conditions -/

variable {schema : Schema} {d : Dependency}

/-- The operand that a literal becomes is the number that it spells. -/
theorem Operand.ofNumeral_cases (l : Literal) (type : StorageType) :
    (∃ n, l.number? = some (.int n) ∧ ofNumeral l type = .ok (.int n)) ∨
      (∃ x, l.number? = some (.dec x) ∧ ofNumeral l type = .ok (.dec x)) ∨
      l.number? = none ∧ ofNumeral l type =
        .error (if l.classify = .string then .incomparable l.text type
          else .outOfRange l.text) := by
  unfold ofNumeral Literal.number? Literal.coerce?
  cases l.classify with
  | string => exact .inr (.inr ⟨rfl, rfl⟩)
  | integer =>
    cases Numeral.readInt64? l.text.toList with
    | none => exact .inr (.inr ⟨rfl, rfl⟩)
    | some n => exact .inl ⟨n, rfl, rfl⟩
  | decimal =>
    cases Numeral.readDecimal? l.text.toList with
    | none => exact .inr (.inr ⟨rfl, rfl⟩)
    | some x =>
      cases hx : x.isFinite with
      | false => exact .inr (.inr (by simp [hx, Option.filter]))
      | true => exact .inr (.inl ⟨x, by simp [hx, Option.filter]⟩)

/-- Numbers are compared with the number of the operand. -/
theorem Operand.equals_int (n : Int64) (v : Value) :
    (Operand.int n).equals v = v.sameNumber (.int n) := by
  cases v <;> rfl

theorem Operand.equals_dec (x : Float) (v : Value) :
    (Operand.dec x).equals v = v.sameNumber (.dec x) := by
  cases v <;> rfl

/-- A dependency that compares no numbers looks at texts. -/
theorem Condition.ofDependency_of_text {i : Nat} {column : Column}
    (hfind : schema.find? d.column = some (i, column))
    (hnumbers : d.comparesNumbers column.type = false) :
    ofDependency schema d = .ok ⟨i, d.comparator, .text d.value.text⟩ := by
  obtain ⟨name, comparator, value⟩ := d
  rw [ofDependency]
  simp only [hfind]
  cases comparator with
  | contains => rfl
  | notContains => rfl
  | equals | notEquals =>
    have hquoted : (value.quoted || !column.type.isNumeric) = true := by
      grind [Dependency.comparesNumbers]
    simp only [Operand.ofLiteral, hquoted]
    rfl

/-- One that compares numbers needs the number that its literal spells. -/
theorem Condition.ofDependency_of_number {i : Nat} {column : Column}
    (hfind : schema.find? d.column = some (i, column))
    (hnumbers : d.comparesNumbers column.type = true) :
    ofDependency schema d =
      (Operand.ofNumeral d.value column.type).map fun o => ⟨i, d.comparator, o⟩ := by
  obtain ⟨name, comparator, value⟩ := d
  rw [ofDependency]
  simp only [hfind]
  obtain ⟨⟨hcomparator, hnumeric⟩, hquoted⟩ : ((comparator = .equals ∨ comparator = .notEquals) ∧
      column.type.isNumeric = true) ∧ value.quoted = false := by
    simpa [Dependency.comparesNumbers] using hnumbers
  rcases hcomparator with rfl | rfl <;> simp only [Operand.ofLiteral, hnumeric, hquoted] <;> rfl

/-- A dependency that compares no numbers accepts what the condition on texts does. -/
theorem Condition.accepts_text {v : Value} (hnumbers : d.comparesNumbers v.storageType = false)
    (i : Nat) : (Condition.mk i d.comparator (.text d.value.text)).accepts v = d.accepts v := by
  have hoccurs : (Operand.text d.value.text).occursIn v = d.occursIn v := by
    rw [Bool.eq_iff_iff, Operand.occursIn, Dependency.occursIn, Text.occursIn_iff_isInfix,
      decide_eq_true_iff]
  rw [accepts, Dependency.accepts, Dependency.equals, hnumbers]
  simp only [Operand.equals_text, hoccurs]
  rfl

/-- One that compares numbers accepts what the condition on its number does. -/
theorem Condition.accepts_number {v w : Value} {operand : Operand}
    (hnumbers : d.comparesNumbers v.storageType = true) (hw : d.value.number? = some w)
    (hequals : operand.equals v = v.sameNumber w) (i : Nat) :
    (Condition.mk i d.comparator operand).accepts v = d.accepts v := by
  have hd : d.equals v = v.sameNumber w := by
    rw [Dependency.equals, if_pos hnumbers, hw]
    rfl
  have hcomparator : d.comparator = .equals ∨ d.comparator = .notEquals := by
    simp only [Dependency.comparesNumbers, Bool.and_eq_true, Bool.or_eq_true, beq_iff_eq]
      at hnumbers
    exact hnumbers.1.1
  rw [accepts, Dependency.accepts, hd, hequals]
  rcases hcomparator with h | h <;> rw [h]

/-- A dependency with which something is wrong becomes no condition; any other one becomes a
condition that says the same of every entry of the table. -/
theorem Condition.ofDependency_cases (schema : Schema) (d : Dependency) :
    (∃ fault, d.fault? schema = some fault ∧ ofDependency schema d = .error fault) ∨
      d.fault? schema = none ∧ ∃ c, ofDependency schema d = .ok c ∧
        ∀ e : Entry, e.Fits schema → c.holds e = d.holds e := by
  rw [Dependency.fault?]
  cases hfind : schema.find? d.column with
  | none =>
    refine .inl ⟨.noSuchColumn, rfl, ?_⟩
    rw [ofDependency]
    simp only [hfind]
  | some found =>
    obtain ⟨i, column⟩ := found
    -- both say what they say of the one value under the name of the column
    have hholds : ∀ operand : Operand,
        (∀ v : Value, v.storageType = column.type →
          (Condition.mk i d.comparator operand).accepts v = d.accepts v) →
        ∀ e : Entry, e.Fits schema →
          (Condition.mk i d.comparator operand).holds e = d.holds e := by
      intro operand haccepts e he
      obtain ⟨p, hp, hget, htype⟩ := he.exists_value hfind
      rw [holds, Dependency.holds, hp, hget]
      exact haccepts p.2 htype
    cases hnumbers : d.comparesNumbers column.type with
    | false =>
      refine .inr ⟨by simp [hnumbers], _, ofDependency_of_text hfind hnumbers, hholds _ ?_⟩
      exact fun v htype => accepts_text (htype ▸ hnumbers) i
    | true =>
      have hcondition := ofDependency_of_number hfind hnumbers
      obtain ⟨n, hnumber, hoperand⟩ | ⟨x, hnumber, hoperand⟩ | ⟨hnumber, hoperand⟩ :=
        Operand.ofNumeral_cases d.value column.type
      · rw [hoperand] at hcondition
        refine .inr ⟨by simp [hnumber], _, hcondition, hholds _ fun v htype => ?_⟩
        exact accepts_number (htype ▸ hnumbers) hnumber (Operand.equals_int n v) i
      · rw [hoperand] at hcondition
        refine .inr ⟨by simp [hnumber], _, hcondition, hholds _ fun v htype => ?_⟩
        exact accepts_number (htype ▸ hnumbers) hnumber (Operand.equals_dec x v) i
      · rw [hoperand] at hcondition
        refine .inl ⟨_, ?_, hcondition⟩
        simp only [hnumbers, hnumber, Option.isNone_none, Bool.and_self, if_true]
        split <;> rfl

/-- Dependencies are refused for the first with which something is wrong. -/
theorem Table.conditions_eq_error {before after : List Dependency} {fault : DependencyFault}
    (hbefore : ∀ d' ∈ before, d'.fault? schema = none) (h : d.fault? schema = some fault) :
    conditions schema (before ++ d :: after) =
      .error (.invalidDependency d.column fault.message) := by
  refine mapM_eq_error_iff.2 ⟨before, d, after, rfl, fun d' hd' => ?_, ?_⟩
  · obtain ⟨fault', hfault', -⟩ | ⟨-, c, hc, -⟩ := Condition.ofDependency_cases schema d'
    · rw [hbefore d' hd'] at hfault'
      cases hfault'
    · exact ⟨c, by rw [hc]; rfl⟩
  · obtain ⟨fault', hfault', herror⟩ | ⟨hnone, -⟩ := Condition.ofDependency_cases schema d
    · cases h.symm.trans hfault'
      rw [herror]
      rfl
    · cases h.symm.trans hnone

/-- If nothing is wrong with them, the conditions say what the dependencies say. -/
theorem Table.exists_conditions {ds : List Dependency}
    (h : ∀ d ∈ ds, d.fault? schema = none) :
    ∃ cs, conditions schema ds = .ok cs ∧
      ∀ e : Entry, e.Fits schema → cs.all (·.holds e) = ds.all (·.holds e) := by
  induction ds with
  | nil => exact ⟨[], rfl, fun _ _ => rfl⟩
  | cons d ds ih =>
    obtain ⟨hd, hds⟩ := List.forall_mem_cons.1 h
    obtain ⟨cs, hcs, hall⟩ := ih hds
    obtain ⟨fault, hfault, -⟩ | ⟨-, c, hc, hholds⟩ := Condition.ofDependency_cases schema d
    · cases hd.symm.trans hfault
    · refine ⟨c :: cs, ?_, fun e he => ?_⟩
      · rw [conditions, mapM_cons_eq_ok_iff]
        exact ⟨c, cs, rfl, by rw [hc]; rfl, hcs⟩
      · rw [List.all_cons, List.all_cons, hholds e he, hall e he]

/-- Dependencies that become conditions are all right. -/
theorem Table.fault?_of_conditions {ds : List Dependency} {cs : List Condition}
    (h : conditions schema ds = .ok cs) : ∀ d ∈ ds, d.fault? schema = none := by
  intro d hd
  obtain ⟨c, -, hc⟩ := exists_of_mem_of_mapM h hd
  obtain ⟨fault, -, hfault⟩ | ⟨hnone, -⟩ := Condition.ofDependency_cases schema d
  · rw [hfault] at hc
    cases hc
  · exact hnone

/-! ## Opposites -/

namespace Dependency

theorem comparesNumbers_opposite (d : Dependency) (type : StorageType) :
    d.opposite.comparesNumbers type = d.comparesNumbers type := by
  obtain ⟨name, comparator, value⟩ := d
  cases comparator <;> rfl

/-- The opposite of a dependency is as right or wrong as the dependency. -/
theorem fault?_opposite (schema : Schema) (d : Dependency) :
    d.opposite.fault? schema = d.fault? schema := by
  unfold fault?
  simp only [comparesNumbers_opposite]
  rfl

/-- A value is accepted by a dependency or by its opposite, and not by both. -/
theorem accepts_opposite (d : Dependency) (v : Value) : d.opposite.accepts v = !d.accepts v := by
  have hequals : d.opposite.equals v = d.equals v := by
    unfold equals
    rw [comparesNumbers_opposite]
    rfl
  have hoccurs : d.opposite.occursIn v = d.occursIn v := rfl
  unfold accepts
  rw [hequals, hoccurs]
  cases h : d.comparator <;> simp [opposite, Comparator.opposite, h]

/-- An entry of the table satisfies a dependency or its opposite, and not both. -/
theorem holds_opposite {d : Dependency} (h : d.fault? schema = none) {e : Entry}
    (he : e.Fits schema) : d.opposite.holds e = !d.holds e := by
  cases hfind : schema.find? d.column with
  | none =>
    rw [fault?, hfind] at h
    cases h
  | some found =>
    obtain ⟨p, -, hget, -⟩ := he.exists_value hfind
    have hget' : e.get? d.opposite.column = some p.2 := hget
    rw [holds, holds, hget, hget']
    exact accepts_opposite d p.2

end Dependency

/-! ## Queries -/

/-- The entries of a file fit the schema that they were read with. -/
theorem fits_of_readEntries {text : String} {entries : List Entry}
    (h : readEntries schema text = .ok entries) : ∀ e ∈ entries, e.Fits schema := by
  obtain ⟨header, hheader, -⟩ := bind_eq_ok_iff.1 h
  obtain ⟨l, -, -, rfl⟩ := exists_layout hheader h
  intro e he
  obtain ⟨s, -, rfl⟩ := List.mem_map.1 he
  exact s.holds.isStored.fits

namespace Table

variable {t t' : Table} {c : Circumstances} {table text : String} {files files' : FileTree}
  {header : Header} {ds : List Dependency} {answer : EntrySet}

/-- The first dependency with which something is wrong is reported, whatever the records are. -/
theorem query_get_eq_error {before after : List Dependency} {fault : DependencyFault}
    (hlive : t.dropped = false) (hread : files.readText t.path = .ok text)
    (hheader : Header.decode text = .ok header)
    (hbefore : ∀ d' ∈ before, d'.fault? t.schema = none) (h : d.fault? t.schema = some fault) :
    t.query c (.get table (.dependencies (before ++ d :: after))) files =
      .error (.invalidDependency d.column fault.message) files := by
  have hselect : t.select text (.dependencies (before ++ d :: after)) =
      .error (.invalidDependency d.column fault.message) := by
    rw [select, hheader]
    simp only [conditions_eq_error hbefore h]
    rfl
  rw [query_get_eq hlive hread, hselect]

/-- If nothing is wrong with the dependencies, those entries of the file are answered that satisfy
each of them. -/
theorem query_get_eq_filter {entries : List Entry} (hlive : t.dropped = false)
    (hread : files.readText t.path = .ok text)
    (hentries : readEntries t.schema text = .ok entries)
    (h : ∀ d ∈ ds, d.fault? t.schema = none) :
    t.query c (.get table (.dependencies ds)) files =
      .ok ((entries.filter fun e => ds.all (·.holds e)).map (Entry.timed c.elapsed), t) files := by
  have hfits := fits_of_readEntries hentries
  obtain ⟨header, hheader, -⟩ := bind_eq_ok_iff.1 hentries
  obtain ⟨l, hchars, -, rfl⟩ := exists_layout hheader hentries
  have htext : text = String.ofList l.chars := by rw [hchars, String.ofList_toList]
  obtain ⟨cs, hcs, hall⟩ := exists_conditions h
  have hchoose : t.choose (.dependencies ds) l.entries = .ok (.every cs) := by
    rw [choose, hcs]
    rfl
  have hchosen : (Choice.every cs).chosen l.entries =
      l.entries.filter fun e => ds.all (·.holds e) :=
    List.filter_congr fun e he => hall e (hfits e he)
  rw [query_get_eq hlive hread, htext, select_eq, hchoose, ← hchosen, ← l.map_entry_selected,
    List.map_map]
  rfl

/-- A query with dependencies succeeds exactly if nothing is wrong with them and the whole file can
be read. -/
theorem query_get_dependencies_eq_ok_iff :
    t.query c (.get table (.dependencies ds)) files = .ok (answer, t') files' ↔
      (∀ d ∈ ds, d.fault? t.schema = none) ∧ t.dropped = false ∧
        ∃ text entries, files.readText t.path = .ok text ∧
          readEntries t.schema text = .ok entries ∧
          answer = (entries.filter fun e => ds.all (·.holds e)).map (Entry.timed c.elapsed) ∧
          t' = t ∧ files' = files := by
  constructor
  · intro hrun
    obtain ⟨hlive, text, selected, hread, hselect, -⟩ := query_get_eq_ok_iff.1 hrun
    obtain ⟨header, hheader, hselect⟩ := bind_eq_ok_iff.1 hselect
    obtain ⟨cs, hcs, hselect⟩ := bind_eq_ok_iff.1 hselect
    obtain ⟨entries, hfound, -⟩ := exists_entries_of_selectWhere (mapError_eq_ok_iff.1 hselect)
    have hentries : readEntries t.schema text = .ok entries :=
      bind_eq_ok_iff.2 ⟨header, mapError_eq_ok_iff.1 hheader, hfound⟩
    have hds := fault?_of_conditions hcs
    rw [query_get_eq_filter hlive hread hentries hds] at hrun
    cases hrun
    exact ⟨hds, hlive, text, entries, hread, hentries, rfl, rfl, rfl⟩
  · rintro ⟨hds, hlive, text, entries, hread, hentries, rfl, rfl, rfl⟩
    exact query_get_eq_filter hlive hread hentries hds

/-- Without dependencies all entries are answered. -/
theorem query_get_all_eq_ok_iff :
    t.query c (.get table .all) files = .ok (answer, t') files' ↔
      t.dropped = false ∧ ∃ text entries, files.readText t.path = .ok text ∧
        readEntries t.schema text = .ok entries ∧
        answer = entries.map (Entry.timed c.elapsed) ∧ t' = t ∧ files' = files := by
  have hall (entries : List Entry) :
      entries.filter (fun e => [].all (Dependency.holds · e)) = entries :=
    List.filter_eq_self.2 fun _ _ => rfl
  rw [Target.all, query_get_dependencies_eq_ok_iff, and_iff_right (List.forall_mem_nil _)]
  simp only [hall]

/-- Dependencies may be permuted and repeated. -/
theorem query_get_of_mem_iff {ds' : List Dependency} (hmem : ∀ d, d ∈ ds' ↔ d ∈ ds)
    (h : t.query c (.get table (.dependencies ds)) files = .ok (answer, t') files') :
    t.query c (.get table (.dependencies ds')) files = .ok (answer, t') files' := by
  obtain ⟨hds, hlive, text, entries, hread, hentries, rfl, rfl, rfl⟩ :=
    query_get_dependencies_eq_ok_iff.1 h
  have hall : ∀ e : Entry, ds'.all (·.holds e) = ds.all (·.holds e) := by
    intro e
    rw [Bool.eq_iff_iff, List.all_eq_true, List.all_eq_true]
    exact forall_congr' fun d => imp_congr_left (hmem d)
  rw [query_get_eq_filter hlive hread hentries fun d hd => hds d ((hmem d).1 hd)]
  simp only [hall]

/-- With fewer dependencies a query succeeds as well and answers no fewer entries. -/
theorem query_get_of_subset {ds' : List Dependency} (hsub : ds ⊆ ds')
    (h : t.query c (.get table (.dependencies ds')) files = .ok (answer, t') files') :
    ∃ more, t.query c (.get table (.dependencies ds)) files = .ok (more, t') files' ∧
      answer.Sublist more := by
  obtain ⟨hds, hlive, text, entries, hread, hentries, rfl, rfl, rfl⟩ :=
    query_get_dependencies_eq_ok_iff.1 h
  refine ⟨_, query_get_eq_filter hlive hread hentries fun d hd => hds d (hsub hd), ?_⟩
  refine (List.monotone_filter_right entries fun e he => ?_).map _
  exact List.all_eq_true.2 fun d hd => List.all_eq_true.1 he d (hsub hd)

/-- With one dependency those entries of the table are answered that satisfy it. -/
theorem query_get_singleton (hd : d.fault? t.schema = none)
    (h : t.query c (.get table .all) files = .ok (answer, t') files') :
    t.query c (.get table (.dependencies [d])) files = .ok (answer.filter d.holds, t') files' := by
  obtain ⟨hlive, text, entries, hread, hentries, rfl, rfl, rfl⟩ := query_get_all_eq_ok_iff.1 h
  have hone : (entries.filter fun e => [d].all (Dependency.holds · e)) =
      entries.filter d.holds :=
    List.filter_congr fun e _ => Bool.and_true _
  -- the time of an answer is no value of an entry
  have htimed : (entries.map (Entry.timed c.elapsed)).filter d.holds =
      (entries.filter d.holds).map (Entry.timed c.elapsed) := List.filter_map
  rw [query_get_eq_filter hlive hread hentries (List.forall_mem_singleton.2 hd), hone, htimed]

/-- A dependency and its opposite divide the entries of a table. -/
theorem query_get_opposite (hd : d.fault? t.schema = none)
    (h : t.query c (.get table .all) files = .ok (answer, t') files') :
    t.query c (.get table (.dependencies [d.opposite])) files =
      .ok (answer.filter (!d.holds ·), t') files' := by
  rw [query_get_singleton ((Dependency.fault?_opposite t.schema d).trans hd) h]
  obtain ⟨-, text, entries, -, hentries, rfl, -, -⟩ := query_get_all_eq_ok_iff.1 h
  have hfits := fits_of_readEntries hentries
  congr 2
  refine List.filter_congr fun e he => ?_
  obtain ⟨e, hmem, rfl⟩ := List.mem_map.1 he
  exact Dependency.holds_opposite hd (hfits e hmem)

end Table

/-- What dependencies mean. On a file with a header, a query is refused for the first dependency
with which something is wrong, whatever the records are; else, if all records can be read, it
answers the entries of the table that satisfy each of the dependencies. So the same dependencies in
another order or repeated have the same answer, with more of them the answer has no more entries,
and a dependency and its opposite divide the entries of the table. -/
theorem query_get_where (t : Table) (c : Circumstances) (table : String) (files : FileTree)
    {text : String} {header : Header} (hlive : t.dropped = false)
    (hread : files.readText t.path = .ok text) (hheader : Header.decode text = .ok header) :
    (∀ before d after fault, (∀ d' ∈ before, Dependency.fault? t.schema d' = none) →
      d.fault? t.schema = some fault →
      t.query c (.get table (.dependencies (before ++ d :: after))) files =
        .error (.invalidDependency d.column fault.message) files) ∧
    (∀ entries, readEntries t.schema text = .ok entries →
      t.query c (.get table .all) files = .ok (entries.map (Entry.timed c.elapsed), t) files ∧
      ∀ ds, (∀ d ∈ ds, Dependency.fault? t.schema d = none) →
        t.query c (.get table (.dependencies ds)) files =
          .ok ((entries.filter fun e => ds.all (·.holds e)).map (Entry.timed c.elapsed), t)
            files) ∧
    (∀ ds ds' result files', (∀ d, d ∈ ds' ↔ d ∈ ds) →
      t.query c (.get table (.dependencies ds)) files = .ok result files' →
      t.query c (.get table (.dependencies ds')) files = .ok result files') ∧
    (∀ ds ds' answer t' files', ds ⊆ ds' →
      t.query c (.get table (.dependencies ds')) files = .ok (answer, t') files' →
      ∃ more, t.query c (.get table (.dependencies ds)) files = .ok (more, t') files' ∧
        answer.Sublist more) ∧
    ∀ d all t' files', Dependency.fault? t.schema d = none →
      t.query c (.get table .all) files = .ok (all, t') files' →
      ∃ yes no, t.query c (.get table (.dependencies [d])) files = .ok (yes, t') files' ∧
        t.query c (.get table (.dependencies [d.opposite])) files = .ok (no, t') files' ∧
        yes = all.filter d.holds ∧ no = all.filter (!d.holds ·) ∧ (yes ++ no).Perm all := by
  refine ⟨fun before d after fault hbefore h => ?_, fun entries hentries => ⟨?_, fun ds h => ?_⟩,
    fun ds ds' result files' hmem h => ?_, fun ds ds' answer t' files' hsub h => ?_,
    fun d all t' files' hd h => ?_⟩
  · exact Table.query_get_eq_error hlive hread hheader hbefore h
  · exact Table.query_get_all_eq_ok_iff.2 ⟨hlive, text, entries, hread, hentries, rfl, rfl, rfl⟩
  · exact Table.query_get_eq_filter hlive hread hentries h
  · exact Table.query_get_of_mem_iff hmem h
  · exact Table.query_get_of_subset hsub h
  · exact ⟨_, _, Table.query_get_singleton hd h, Table.query_get_opposite hd h, rfl, rfl,
      List.filter_append_perm _ all⟩

/-- A number and a text that is none, compared with a column of integers in a file of two
records. -/
theorem query_get_where_two_records :
    ∃ (t : Table) (files : FileTree) (a b : Entry),
      t = { name := "T", schema := ⟨[⟨"A", .integer⟩]⟩, path := "t" } ∧
      files = ⟨[(["t"], .file "[T,0:A] \x7ba;I:+5\x7d \x7bb;I:7\x7d".toUTF8)], []⟩ ∧
      t.query ⟨"", 3⟩ (.get "T" .all) files = .ok ([a, b], t) files ∧
      t.query ⟨"", 3⟩ (.get "T" (.dependencies [⟨"A", .equals, .bare "05"⟩])) files =
        .ok ([a], t) files ∧
      t.query ⟨"", 3⟩ (.get "T" (.dependencies [⟨"A", .notEquals, .bare "05"⟩])) files =
        .ok ([b], t) files ∧
      t.query ⟨"", 3⟩ (.get "T" (.dependencies [⟨"A", .notEquals, .bare "x"⟩])) files =
        .error (.invalidDependency "A" "\"x\" cannot be compared with a INTEGER column") files := by
  let schema : Schema := ⟨[⟨"A", .integer⟩]⟩
  let text : String := "[T,0:A] \x7ba;I:+5\x7d \x7bb;I:7\x7d"
  let t : Table := { name := "T", schema, path := "t" }
  let files : FileTree := ⟨[(["t"], .file text.toUTF8)], []⟩
  let a : Entry := { id := "a", data := [("A", .int 5)], queryTime := some 3 }
  let b : Entry := { id := "b", data := [("A", .int 7)], queryTime := some 3 }
  have hleads : files.LeadsTo t.path ["t"] := ⟨by decide, by decide, by decide⟩
  have hread : files.readText t.path = .ok text := FileTree.readText_eq_ok hleads rfl
  have hheader : Header.decode text = .ok ⟨"T", schema, 7⟩ := by decide
  have hentries : readEntries schema text =
      .ok [{ id := "a", data := [("A", .int 5)] }, { id := "b", data := [("A", .int 7)] }] := by
    cbv
  obtain ⟨hfault, hvalid, -, -, hopposite⟩ :=
    query_get_where t ⟨"", 3⟩ "T" files rfl hread hheader
  have hall : t.query ⟨"", 3⟩ (.get "T" .all) files = .ok ([a, b], t) files := (hvalid _ hentries).1
  obtain ⟨yes, no, hyes, hno, rfl, rfl, -⟩ :=
    hopposite ⟨"A", .equals, .bare "05"⟩ _ _ _ (by decide) hall
  exact ⟨t, files, a, b, rfl, rfl, hall, hyes, hno,
    hfault [] ⟨"A", .notEquals, .bare "x"⟩ [] (.incomparable "x" .integer)
      (List.forall_mem_nil _) (by decide)⟩

end RecordStore

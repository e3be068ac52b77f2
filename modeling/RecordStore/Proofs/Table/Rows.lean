import RecordStore.Proofs.Table.Finding

/-!
# What queries do to a list of entries

What a query does to a list of entries, or why it fails, can be said without the conditions, rows
and choices that it is computed with: literals suit their columns, dependencies are at fault or are
satisfied by entries, and a target is about some entries of the list.

- `Schema.Refuses`, `Schema.RefusesNew`: why literals are refused;
- `Target.Marks`, `Target.FailsWith`: which entries a target is about, and why it may be about none;
- `Table.Performs`, `Table.FailsWith`: what a query does to a list of entries, and why it fails;
- `queryRows_eq_ok_iff`, `queryRows_eq_error_iff`: this is how a query on the list ends;
- `Table.Runs`, `runSteps_stepRows_eq_iff`: so does every sequence of queries.
-/

namespace RecordStore

variable {schema : Schema} {values : List Literal} {rows : List Entry} {error : QueryError}

/-! ## Literals -/

/-- Why literals are refused as a row of values: there is not one for each column, or one does not
suit its column. The first such literal is reported. -/
inductive Schema.Refuses (schema : Schema) (values : List Literal) : QueryError → Prop
  | count (h : values.length ≠ schema.size) :
      Refuses schema values (.valueCountMismatch schema.size values.length)
  | value {before after : List (Literal × Column)} {l : Literal} {column : Column}
      (hlength : values.length = schema.size)
      (hzip : values.zip schema.columns = before ++ (l, column) :: after)
      (hbefore : ∀ x ∈ before, x.1.Suits x.2) (h : ¬l.Suits column) :
      Refuses schema values (.typeMismatch column.name l.text column.type)

/-- Why literals are refused as the values of a new entry: they are no row of values, or one is a
wildcard. The first wildcard is reported. -/
inductive Schema.RefusesNew (schema : Schema) (values : List Literal) : QueryError → Prop
  | row {error : QueryError} (h : schema.Refuses values error) : RefusesNew schema values error
  | wildcard {before after : List (Literal × Column)} {l : Literal} {column : Column}
      (hsuits : List.Forall₂ Literal.Suits values schema.columns)
      (hzip : values.zip schema.columns = before ++ (l, column) :: after)
      (hbefore : ∀ x ∈ before, x.1.isWildcard = false) (h : l.isWildcard = true) :
      RefusesNew schema values (.typeMismatch column.name "*" column.type)

theorem coerceColumn_eq_error_iff {l : Literal} {column : Column} :
    Table.coerceColumn l column = .error error ↔
      ¬l.Suits column ∧ error = .typeMismatch column.name l.text column.type := by
  rw [← exists_coerceColumn_iff]
  unfold Table.coerceColumn
  split
  · simp
  · split
    · simp
    · simp [Table.typeMismatch, eq_comm]

theorem coerceRow_eq_error_iff :
    Table.coerceRow schema values = .error error ↔ schema.Refuses values error := by
  unfold Table.coerceRow
  split
  · next hcount =>
    constructor
    · rintro ⟨⟩
      exact .count hcount
    · intro h
      cases h with
      | count => rfl
      | value hlength => exact absurd hlength hcount
  · next hlength =>
    rw [not_not] at hlength
    rw [mapM_eq_error_iff]
    constructor
    · rintro ⟨before, ⟨l, column⟩, after, hzip, hbefore, h⟩
      obtain ⟨hsuits, rfl⟩ := coerceColumn_eq_error_iff.1 h
      exact .value hlength hzip (fun x hx => exists_coerceColumn_iff.1 (hbefore x hx)) hsuits
    · intro h
      cases h with
      | count hcount => exact absurd hlength hcount
      | @value before after l column _ hzip hbefore h =>
        exact ⟨before, (l, column), after, hzip,
          fun x hx => exists_coerceColumn_iff.2 (hbefore x hx),
          coerceColumn_eq_error_iff.2 ⟨h, rfl⟩⟩

/-- The value that a literal gives in a column, which a wildcard does not. -/
def Literal.given? (l : Literal) (column : Column) : Option Value :=
  if l.isWildcard then none else l.coerce? column.type

theorem Literal.Suits.given?_eq_none_iff {l : Literal} {column : Column} (h : l.Suits column) :
    l.given? column = none ↔ l.isWildcard = true := by
  rw [given?]
  cases hwild : l.isWildcard with
  | true => simp
  | false =>
    obtain ⟨v, hv⟩ := h.resolve_left (Bool.eq_false_iff.1 hwild)
    simp [hv]

/-- The row of values that literals are accepted as. -/
theorem map_given?_of_coerceRow {row : List (Option Value)}
    (h : Table.coerceRow schema values = .ok row) :
    (values.zip schema.columns).map (fun x => x.1.given? x.2) = row := by
  obtain ⟨-, hvalues⟩ := coerceRow_eq_ok_iff.1 h
  rw [← List.forall₂_eq_eq_eq, List.forall₂_map_left_iff]
  refine (mapM_eq_ok_iff.1 hvalues).imp fun x value hvalue => ?_
  rcases coerceColumn_eq_ok_iff.1 hvalue with ⟨hwild, rfl⟩ | ⟨hwild, v, hv, rfl⟩
  · exact if_pos hwild
  · rw [← hv, Literal.given?, hwild]
    rfl

/-- A new row of literals that suit their columns needs the value that each of them gives. -/
theorem newRow_of_suits (h : List.Forall₂ Literal.Suits values schema.columns) :
    Table.newRow schema values =
      (values.zip schema.columns).mapM fun x => Table.requireValue (x.1.given? x.2) x.2 := by
  obtain ⟨row, hrow⟩ := exists_coerceRow h
  -- the row and the columns are both read off the same pairs of literals and columns
  have hcolumns : (values.zip schema.columns).map Prod.snd = schema.columns :=
    List.map_snd_zip (Nat.le_of_eq h.length_eq.symm)
  have hzip : row.zip schema.columns =
      (values.zip schema.columns).map fun x => (x.1.given? x.2, x.2) := by
    rw [← map_given?_of_coerceRow hrow]
    exact (congrArg (List.zip _) hcolumns.symm).trans List.zip_map'
  rw [Table.newRow, hrow]
  show (row.zip schema.columns).mapM _ = _
  rw [hzip, List.mapM_map]
  rfl

theorem exists_requireValue_iff {value : Option Value} {column : Column} :
    (∃ p, Table.requireValue value column = .ok p) ↔ value ≠ none := by
  cases value <;> simp [Table.requireValue]

theorem requireValue_eq_error_iff {value : Option Value} {column : Column} :
    Table.requireValue value column = .error error ↔
      value = none ∧ error = .typeMismatch column.name "*" column.type := by
  cases value <;> simp [Table.requireValue, Table.typeMismatch, eq_comm]

theorem newRow_eq_error_iff :
    Table.newRow schema values = .error error ↔ schema.RefusesNew values error := by
  cases hrow : Table.coerceRow schema values with
  | error e =>
    have hnew : Table.newRow schema values = .error e := by
      rw [Table.newRow, hrow]
      rfl
    rw [hnew]
    constructor
    · rintro ⟨⟩
      exact .row (coerceRow_eq_error_iff.1 hrow)
    · intro h
      cases h with
      | row h =>
        cases hrow.symm.trans (coerceRow_eq_error_iff.2 h)
        rfl
      | wildcard hsuits =>
        obtain ⟨row, hrow'⟩ := exists_coerceRow hsuits
        cases hrow.symm.trans hrow'
  | ok row =>
    have hsuits := suits_of_coerceRow hrow
    have hgiven : ∀ x ∈ values.zip schema.columns,
        (x.1.given? x.2 = none ↔ x.1.isWildcard = true) :=
      fun x hx => Literal.Suits.given?_eq_none_iff (List.forall₂_zip hsuits hx)
    rw [newRow_of_suits hsuits, mapM_eq_error_iff]
    constructor
    · rintro ⟨before, ⟨l, column⟩, after, hzip, hbefore, h⟩
      rw [hzip] at hgiven
      obtain ⟨hnone, rfl⟩ := requireValue_eq_error_iff.1 h
      refine .wildcard hsuits hzip (fun x hx => ?_) ((hgiven _ List.mem_append_cons_self).1 hnone)
      rw [Bool.eq_false_iff, ne_eq, ← hgiven x (List.mem_append_left _ hx)]
      exact exists_requireValue_iff.1 (hbefore x hx)
    · intro h
      cases h with
      | row h => cases hrow.symm.trans (coerceRow_eq_error_iff.2 h)
      | @wildcard before after l column _ hzip hbefore hwild =>
        rw [hzip] at hgiven
        have hnone := (hgiven _ List.mem_append_cons_self).2 hwild
        refine ⟨before, (l, column), after, hzip, fun x hx => exists_requireValue_iff.2 ?_,
          requireValue_eq_error_iff.2 ⟨hnone, rfl⟩⟩
        rw [ne_eq, hgiven x (List.mem_append_left _ hx), hbefore x hx]
        exact Bool.false_ne_true

/-! ## Targets -/

/-- Which entries of a list a target is about, with a mark for each of them: the first one with the
id, or every one that satisfies all dependencies, with none of which anything is wrong. -/
inductive Target.Marks (schema : Schema) : Target → List Entry → List Bool → Prop
  | entry {id : String} {before after : List Entry} {e : Entry}
      (hbefore : ∀ e' ∈ before, e'.id ≠ id) (h : e.id = id) :
      Marks schema (.entry id) (before ++ e :: after)
        (before.map (fun _ => false) ++ true :: after.map fun _ => false)
  | dependencies {ds : List Dependency} {rows : List Entry} (h : ∀ d ∈ ds, d.fault? schema = none) :
      Marks schema (.dependencies ds) rows (rows.map fun e => ds.all (·.holds e))

/-- Why a query with a target fails: there is no entry with the id, or something is wrong with a
dependency, of which the first is reported. -/
inductive Target.FailsWith (t : Table) (rows : List Entry) : Target → QueryError → Prop
  | entry {id : String} (h : ∀ e ∈ rows, e.id ≠ id) :
      FailsWith t rows (.entry id) (.entryNotFound t.name id)
  | dependencies {before after : List Dependency} {d : Dependency} {fault : DependencyFault}
      (hbefore : ∀ d' ∈ before, d'.fault? t.schema = none) (h : d.fault? t.schema = some fault) :
      FailsWith t rows (.dependencies (before ++ d :: after))
        (.invalidDependency d.column fault.message)

/-- A target is about some entries, or there is a reason why it is not. -/
theorem Target.marks_or_failsWith (t : Table) (rows : List Entry) (target : Target) :
    (∃ marks, target.Marks t.schema rows marks) ∨ ∃ error, target.FailsWith t rows error := by
  cases target with
  | entry id =>
    cases hfind : rows.find? (·.id = id) with
    | none => exact .inr ⟨_, .entry (by simpa using hfind)⟩
    | some e =>
      obtain ⟨he, before, after, rfl, hbefore⟩ := List.find?_eq_some_iff_append.1 hfind
      exact .inl ⟨_, .entry (by simpa using hbefore) (of_decide_eq_true he)⟩
  | dependencies ds =>
    cases hfind : ds.find? fun d => (d.fault? t.schema).isSome with
    | none => exact .inl ⟨_, .dependencies (by simpa using hfind)⟩
    | some d =>
      obtain ⟨hd, before, after, rfl, hbefore⟩ := List.find?_eq_some_iff_append.1 hfind
      obtain ⟨fault, hfault⟩ := Option.isSome_iff_exists.1 hd
      exact .inr ⟨_, .dependencies (by simpa using hbefore) hfault⟩

namespace Choice

theorem marks_every (conditions : List Condition) (es : List Entry) :
    (every conditions).marks es = es.map fun e => conditions.all (·.holds e) := by
  induction es with
  | nil => rfl
  | cons e es ih => exact congrArg (conditions.all (·.holds e) :: ·) ih

theorem marks_first {id : String} {before : List Entry} {e : Entry}
    (hbefore : ∀ e' ∈ before, e'.id ≠ id) (h : e.id = id) (after : List Entry) :
    (first id).marks (before ++ e :: after) =
      before.map (fun _ => false) ++ true :: after.map fun _ => false := by
  induction before with
  | nil => exact if_pos h
  | cons e' before ih =>
    obtain ⟨hne, hbefore⟩ := List.forall_mem_cons.1 hbefore
    rw [List.cons_append, marks, if_neg hne, ih hbefore]
    rfl

/-- Where nothing is put in the place of the chosen entries, the others are left. -/
theorem replace_nil (c : Choice) (es : List Entry) :
    c.replace (fun _ => []) es = marked (es.zip ((c.marks es).map (!·))) := by
  rw [replace_eq_marks]
  generalize c.marks es = marks
  induction es generalizing marks with
  | nil => rfl
  | cons e es ih =>
    cases marks with
    | nil => rfl
    | cons mark marks =>
      cases mark with
      | false => exact congrArg (e :: ·) (ih marks)
      | true => exact ih marks

/-- Where one entry is put in the place of each chosen one, the list stays as long as it is. -/
theorem replace_singleton (f : Entry → Entry) (c : Choice) (es : List Entry) :
    c.replace (fun e => [f e]) es =
      (es.zip (c.marks es)).map fun row => if row.2 then f row.1 else row.1 := by
  rw [replace_eq_marks, List.map_eq_flatMap]
  refine List.flatMap_congr fun row _ => ?_
  obtain ⟨e, mark⟩ := row
  cases mark <;> rfl

end Choice

namespace Table

variable {t : Table} {target : Target} {marks : List Bool}

/-- The choice that a target makes is about the entries that the target is about. -/
theorem exists_choice_of_marks (hfits : ∀ e ∈ rows, e.Fits t.schema)
    (h : target.Marks t.schema rows marks) :
    ∃ choice, t.choose target rows = .ok choice ∧ choice.marks rows = marks := by
  cases h with
  | @entry id before after e hbefore he =>
    have hany : (before ++ e :: after).any (·.id = id) = true := by simp [he]
    exact ⟨.first id, if_pos hany, Choice.marks_first hbefore he after⟩
  | @dependencies ds _ hds =>
    obtain ⟨cs, hcs, hall⟩ := exists_conditions hds
    refine ⟨.every cs, by rw [choose, hcs]; rfl, ?_⟩
    rw [Choice.marks_every]
    exact List.map_congr_left fun e he => hall e (hfits e he)

theorem choose_of_failsWith (h : target.FailsWith t rows error) :
    t.choose target rows = .error error := by
  cases h with
  | entry hid => exact if_neg (by simpa using hid)
  | dependencies hbefore hfault => rw [choose, conditions_eq_error hbefore hfault]; rfl

end Table

/-! ## Queries -/

/-- What a query on a table does to the list of its entries: its answer, and the list afterwards,
which there is none of after a drop. -/
inductive Table.Performs (t : Table) (c : Circumstances) (rows : List Entry) :
    Query → EntrySet → Option (List Entry) → Prop
  | add {table : String} {values : List Literal} {e : Entry} (hid : e.id = c.newId)
      (htime : e.queryTime = none) (hfits : e.Fits t.schema) (hnew : e.IsNew values) :
      Performs t c rows (.add table values) [e] (some (rows ++ [e]))
  | get {table : String} {target : Target} {marks : List Bool}
      (h : target.Marks t.schema rows marks) :
      Performs t c rows (.get table target)
        ((marked (rows.zip marks)).map (Entry.timed c.elapsed)) (some rows)
  | remove {table : String} {target : Target} {marks : List Bool}
      (h : target.Marks t.schema rows marks) :
      Performs t c rows (.remove table target) (marked (rows.zip marks))
        (some (marked (rows.zip (marks.map (!·)))))
  | set {table : String} {target : Target} {values : List Literal} {marks : List Bool}
      (hsuits : List.Forall₂ Literal.Suits values t.schema.columns)
      (h : target.Marks t.schema rows marks) :
      Performs t c rows (.set table target values)
        ((marked (rows.zip marks)).map fun e => (e.overwrite values).timed c.elapsed)
        (some ((rows.zip marks).map fun row => if row.2 then row.1.overwrite values else row.1))
  | drop {table : String} : Performs t c rows (.drop table) [] none

/-- Why a query on a table fails. The values of a query that sets entries are looked at before its
target. -/
inductive Table.FailsWith (t : Table) (rows : List Entry) : Query → QueryError → Prop
  | add {table : String} {values : List Literal} {error : QueryError}
      (h : t.schema.RefusesNew values error) : FailsWith t rows (.add table values) error
  | get {table : String} {target : Target} {error : QueryError}
      (h : target.FailsWith t rows error) : FailsWith t rows (.get table target) error
  | remove {table : String} {target : Target} {error : QueryError}
      (h : target.FailsWith t rows error) : FailsWith t rows (.remove table target) error
  | values {table : String} {target : Target} {values : List Literal} {error : QueryError}
      (h : t.schema.Refuses values error) : FailsWith t rows (.set table target values) error
  | set {table : String} {target : Target} {values : List Literal} {error : QueryError}
      (hsuits : List.Forall₂ Literal.Suits values t.schema.columns)
      (h : target.FailsWith t rows error) : FailsWith t rows (.set table target values) error

namespace Table

variable {t : Table} {c : Circumstances} {q : Query} {answer : EntrySet}
  {rest : Option (List Entry)}

/-- A query does something to a list of entries, or there is a reason why it fails. -/
theorem performs_or_failsWith (t : Table) (c : Circumstances) (rows : List Entry) (q : Query) :
    (∃ answer rest, t.Performs c rows q answer rest) ∨ ∃ error, t.FailsWith rows q error := by
  cases q with
  | add table values =>
    cases hrow : newRow t.schema values with
    | error e => exact .inr ⟨e, .add (newRow_eq_error_iff.1 hrow)⟩
    | ok data =>
      obtain ⟨hfits, hnew⟩ := (newRow_eq_ok_iff c.newId).1 hrow
      exact .inl ⟨_, _, .add rfl rfl hfits hnew⟩
  | get table target =>
    obtain ⟨marks, h⟩ | ⟨e, h⟩ := target.marks_or_failsWith t rows
    · exact .inl ⟨_, _, .get h⟩
    · exact .inr ⟨e, .get h⟩
  | remove table target =>
    obtain ⟨marks, h⟩ | ⟨e, h⟩ := target.marks_or_failsWith t rows
    · exact .inl ⟨_, _, .remove h⟩
    · exact .inr ⟨e, .remove h⟩
  | set table target values =>
    cases hrow : coerceRow t.schema values with
    | error e => exact .inr ⟨e, .values (coerceRow_eq_error_iff.1 hrow)⟩
    | ok row =>
      have hsuits := suits_of_coerceRow hrow
      obtain ⟨marks, h⟩ | ⟨e, h⟩ := target.marks_or_failsWith t rows
      · exact .inl ⟨_, _, .set hsuits h⟩
      · exact .inr ⟨e, .set hsuits h⟩
  | drop table => exact .inl ⟨_, _, .drop⟩

theorem queryRows_of_performs (hfits : ∀ e ∈ rows, e.Fits t.schema)
    (h : t.Performs c rows q answer rest) : t.queryRows c rows q = .ok (answer, rest) := by
  cases h with
  | @add _ values e hid htime he hnew =>
    obtain ⟨id, data, time⟩ := e
    cases htime
    cases hid
    rw [queryRows, (newRow_eq_ok_iff c.newId).2 ⟨he, hnew⟩]
    rfl
  | get hmarks =>
    obtain ⟨choice, hchoose, rfl⟩ := exists_choice_of_marks hfits hmarks
    rw [queryRows, hchoose, ← Choice.chosen_eq_marks]
    rfl
  | remove hmarks =>
    obtain ⟨choice, hchoose, rfl⟩ := exists_choice_of_marks hfits hmarks
    rw [queryRows, hchoose, ← Choice.chosen_eq_marks, ← Choice.replace_nil]
    rfl
  | @set _ _ values _ hsuits hmarks =>
    obtain ⟨choice, hchoose, rfl⟩ := exists_choice_of_marks hfits hmarks
    obtain ⟨row, hrow⟩ := exists_coerceRow hsuits
    rw [queryRows, hrow, hchoose, ← Choice.chosen_eq_marks,
      ← Choice.replace_singleton (Entry.overwrite values)]
    rfl
  | drop => rfl

theorem queryRows_of_failsWith (h : t.FailsWith rows q error) :
    t.queryRows c rows q = .error error := by
  cases h with
  | add h =>
    rw [queryRows, newRow_eq_error_iff.2 h]
    rfl
  | get h | remove h =>
    rw [queryRows, choose_of_failsWith h]
    rfl
  | values h =>
    rw [queryRows, coerceRow_eq_error_iff.2 h]
    rfl
  | set hsuits h =>
    obtain ⟨row, hrow⟩ := exists_coerceRow hsuits
    rw [queryRows, hrow, choose_of_failsWith h]
    rfl

/-- A query on a list of entries that fit the schema succeeds with what it does to the list. -/
theorem queryRows_eq_ok_iff (hfits : ∀ e ∈ rows, e.Fits t.schema) :
    t.queryRows c rows q = .ok (answer, rest) ↔ t.Performs c rows q answer rest := by
  refine ⟨fun h => ?_, queryRows_of_performs hfits⟩
  -- every query does something or fails, and the list cannot do both
  obtain ⟨answer', rest', hperforms⟩ | ⟨error, hfails⟩ := performs_or_failsWith t c rows q
  · cases h.symm.trans (queryRows_of_performs hfits hperforms)
    exact hperforms
  · cases h.symm.trans (queryRows_of_failsWith hfails)

/-- It fails for the reasons that there are, in the order in which they are looked at. -/
theorem queryRows_eq_error_iff (hfits : ∀ e ∈ rows, e.Fits t.schema) :
    t.queryRows c rows q = .error error ↔ t.FailsWith rows q error := by
  refine ⟨fun h => ?_, queryRows_of_failsWith⟩
  obtain ⟨answer, rest, hperforms⟩ | ⟨error', hfails⟩ := performs_or_failsWith t c rows q
  · cases h.symm.trans (queryRows_of_performs hfits hperforms)
  · cases h.symm.trans (queryRows_of_failsWith (c := c) hfails)
    exact hfails

/-- The entries that a query leaves fit the schema if those before it did. -/
theorem Performs.fits {rows' : List Entry} (h : t.Performs c rows q answer (some rows'))
    (hfits : ∀ e ∈ rows, e.Fits t.schema) : ∀ e ∈ rows', e.Fits t.schema := by
  cases h with
  | add _ _ he _ => exact List.forall_mem_append.2 ⟨hfits, List.forall_mem_singleton.2 he⟩
  | get _ => exact hfits
  | remove _ =>
    intro e he
    obtain ⟨x, hx, rfl⟩ := List.mem_map.1 he
    exact hfits x.1 (List.of_mem_zip (List.mem_filter.1 hx).1).1
  | set hsuits _ =>
    intro e he
    obtain ⟨x, hx, rfl⟩ := List.mem_map.1 he
    have hold := hfits x.1 (List.of_mem_zip hx).1
    split
    · exact hold.overwrite hsuits.length_eq
    · exact hold

end Table

/-! ## Sequences of queries -/

/-- What a sequence of queries on a table does to the list of its entries: the answers, and the list
afterwards. A query that fails leaves the list as it is. Where there is no list, for the table was
dropped, every query fails. -/
inductive Table.Runs (t : Table) : Option (List Entry) → List (Circumstances × Query) →
    List (Except QueryError EntrySet) → Option (List Entry) → Prop
  | nil {s : Option (List Entry)} : Runs t s [] [] s
  | performs {rows : List Entry} {c : Circumstances} {q : Query} {answer : EntrySet}
      {s last : Option (List Entry)} {xs : List (Circumstances × Query)}
      {answers : List (Except QueryError EntrySet)} (h : t.Performs c rows q answer s)
      (hrest : Runs t s xs answers last) :
      Runs t (some rows) ((c, q) :: xs) (.ok answer :: answers) last
  | failsWith {rows : List Entry} {c : Circumstances} {q : Query} {error : QueryError}
      {last : Option (List Entry)} {xs : List (Circumstances × Query)}
      {answers : List (Except QueryError EntrySet)} (h : t.FailsWith rows q error)
      (hrest : Runs t (some rows) xs answers last) :
      Runs t (some rows) ((c, q) :: xs) (.error error :: answers) last
  | dropped {x : Circumstances × Query} {last : Option (List Entry)}
      {xs : List (Circumstances × Query)} {answers : List (Except QueryError EntrySet)}
      (hrest : Runs t none xs answers last) :
      Runs t none (x :: xs) (.error (.tableDropped t.name) :: answers) last

namespace Table

variable {t : Table} {s last : Option (List Entry)} {xs : List (Circumstances × Query)}
  {answers : List (Except QueryError EntrySet)}

theorem exists_runs (t : Table) (s : Option (List Entry)) (xs : List (Circumstances × Query)) :
    ∃ answers last, t.Runs s xs answers last := by
  induction xs generalizing s with
  | nil => exact ⟨[], s, .nil⟩
  | cons x xs ih =>
    cases s with
    | none =>
      obtain ⟨answers, last, hrest⟩ := ih none
      exact ⟨_, last, .dropped hrest⟩
    | some rows =>
      obtain ⟨answer, s, h⟩ | ⟨error, h⟩ := performs_or_failsWith t x.1 rows x.2
      · obtain ⟨answers, last, hrest⟩ := ih s
        exact ⟨_, last, .performs h hrest⟩
      · obtain ⟨answers, last, hrest⟩ := ih (some rows)
        exact ⟨_, last, .failsWith h hrest⟩

theorem runSteps_of_runs (hfits : ∀ rows, s = some rows → ∀ e ∈ rows, e.Fits t.schema)
    (h : t.Runs s xs answers last) : runSteps t.stepRows s xs = (answers, last) := by
  -- the entries on the list fit the schema again before each query
  induction h with
  | nil => rfl
  | performs h hrest ih =>
    have hquery := queryRows_of_performs (hfits _ rfl) h
    have hnext := ih fun rows' hs => (hs ▸ h).fits (hfits _ rfl)
    simp only [runSteps, stepRows, hquery, hnext]
  | @failsWith _ c _ _ _ _ _ h hrest ih =>
    have hquery := queryRows_of_failsWith (c := c) h
    simp only [runSteps, stepRows, hquery, ih hfits]
  | dropped hrest ih => simp only [runSteps, stepRows, ih hfits]

/-- A sequence of queries on a list of entries that fit the schema, as those of the empty list of a
new table do, ends with what the queries do to the list one after the other. -/
theorem runSteps_stepRows_eq_iff
    (hfits : ∀ rows, s = some rows → ∀ e ∈ rows, e.Fits t.schema) :
    runSteps t.stepRows s xs = (answers, last) ↔ t.Runs s xs answers last := by
  refine ⟨fun h => ?_, runSteps_of_runs hfits⟩
  obtain ⟨answers', last', hruns⟩ := exists_runs t s xs
  cases h.symm.trans (runSteps_of_runs hfits hruns)
  exact hruns

end Table

end RecordStore

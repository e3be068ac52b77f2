import RecordStore.Proofs.Table.Selection

/-!
# Columns of entries

A condition looks up its column in the schema and then finds the value in an entry by its position.
In an entry that fits the schema this is the value that the entry itself has under the name.

- `getElem?_of_find?`: the value at the position of a column; `Entry.Fits.exists_value`: there is
  one for every column of the schema;
- `holds_quoted_iff`, `choose_quoted`: a comparison with a quoted literal, which compares texts.
-/

namespace RecordStore

/-! ## Positions -/

theorem Schema.exists_find?_of_mem {schema : Schema} {column : Column}
    (h : column ∈ schema.columns) : ∃ i c, schema.find? column.name = some (i, c) := by
  obtain ⟨i, hi, heq⟩ := List.mem_iff_getElem.1 h
  have hmem : (column, i) ∈ schema.columns.zipIdx :=
    List.mem_zipIdx_iff_getElem?.2 (by rw [← heq, List.getElem?_eq_getElem hi])
  unfold Schema.find?
  generalize hfind : schema.columns.zipIdx.find? _ = found
  cases found with
  | none => exact absurd (beq_self_eq_true _) (List.find?_eq_none.1 hfind _ hmem)
  | some found => exact ⟨found.2, found.1, rfl⟩

theorem Schema.mem_of_find? {schema : Schema} {name : String} {i : Nat} {c : Column}
    (h : schema.find? name = some (i, c)) : schema.columns[i]? = some c := by
  obtain ⟨⟨column, position⟩, hfind, heq⟩ := Option.map_eq_some_iff.1 h
  cases heq
  exact List.mem_zipIdx_iff_getElem?.1 (List.mem_of_find?_eq_some hfind)

/-- Names and values are walked along together; positions are counted from any number on. -/
theorem getElem?_of_find?_zipIdx {data : List (String × Value)} {name : String} {k i : Nat}
    {c : Column}
    (h : ((data.map fun p => Column.mk p.1 p.2.storageType).zipIdx k).find?
      (fun (c, _) => c.name == name) = some (c, i)) :
    ∃ j, i = k + j ∧ data[j]? = data.find? (·.1 == name) := by
  induction data generalizing k with
  | nil => cases h
  | cons p data ih =>
    rw [List.map_cons, List.zipIdx_cons, List.find?_cons] at h
    rw [List.find?_cons]
    split at h
    · next hp =>
      have hname : (p.1 == name) = true := hp
      cases h
      exact ⟨0, rfl, by rw [hname]; rfl⟩
    · next hp =>
      have hname : (p.1 == name) = false := hp
      obtain ⟨j, rfl, hj⟩ := ih h
      refine ⟨j + 1, by omega, ?_⟩
      rw [hname, List.getElem?_cons_succ, hj]

/-- The value at the position of a column is the value under its name. -/
theorem Entry.Fits.getElem?_of_find? {schema : Schema} {e : Entry} (h : e.Fits schema)
    {name : String} {i : Nat} {c : Column} (hfind : schema.find? name = some (i, c)) :
    e.data[i]?.map (·.2) = e.get? name := by
  obtain ⟨⟨column, position⟩, hfind, heq⟩ := Option.map_eq_some_iff.1 hfind
  cases heq
  rw [← h, Entry.columns] at hfind
  obtain ⟨j, rfl, hj⟩ := getElem?_of_find?_zipIdx hfind
  rw [Nat.zero_add, hj, Entry.get?]

/-- A condition knows the position of its column. -/
theorem Condition.exists_find?_of_ofDependency {schema : Schema} {d : Dependency} {c : Condition}
    (h : Condition.ofDependency schema d = .ok c) :
    ∃ column, schema.find? d.column = some (c.position, column) := by
  unfold Condition.ofDependency at h
  split at h
  · cases h
  · next position column hfind =>
    obtain ⟨operand, -, rfl⟩ := map_eq_ok_iff.1 h
    exact ⟨column, hfind⟩

/-- An entry that fits the schema has a value of its type for each column. -/
theorem Entry.Fits.exists_value {schema : Schema} {e : Entry} (h : e.Fits schema) {name : String}
    {i : Nat} {c : Column} (hfind : schema.find? name = some (i, c)) :
    ∃ p, e.data[i]? = some p ∧ e.get? name = some p.2 ∧ p.2.storageType = c.type := by
  have hcolumn := Schema.mem_of_find? hfind
  rw [← h, Entry.columns, List.getElem?_map] at hcolumn
  obtain ⟨p, hp, rfl⟩ := Option.map_eq_some_iff.1 hcolumn
  refine ⟨p, hp, ?_, rfl⟩
  rw [← h.getElem?_of_find? hfind, hp]
  rfl

/-- It has one for each condition. -/
theorem Entry.Fits.exists_getElem? {schema : Schema} {e : Entry} (h : e.Fits schema)
    {d : Dependency} {c : Condition} (hc : Condition.ofDependency schema d = .ok c) :
    ∃ p, e.data[c.position]? = some p := by
  obtain ⟨column, hfind⟩ := Condition.exists_find?_of_ofDependency hc
  obtain ⟨p, hp, -⟩ := h.exists_value hfind
  exact ⟨p, hp⟩

/-! ## Quoted literals -/

theorem Operand.equals_text (s : String) (v : Value) :
    (Operand.text s).equals v = (v.text == s) := by
  cases v <;> rfl

theorem Condition.ofDependency_quoted {schema : Schema} {name : String} {i : Nat} {c : Column}
    (hfind : schema.find? name = some (i, c)) (text : String) :
    Condition.ofDependency schema ⟨name, .equals, .ofQuoted text⟩ =
      .ok ⟨i, .equals, .text text⟩ := by
  rw [Condition.ofDependency]
  simp only [hfind]
  rfl

/-- A value equals a quoted literal if its text is that of the literal. -/
theorem Condition.holds_quoted_iff {schema : Schema} {e : Entry} (h : e.Fits schema)
    {name : String} {i : Nat} {c : Column} (hfind : schema.find? name = some (i, c))
    (text : String) :
    (Condition.mk i .equals (.text text)).holds e = true ↔
      (e.get? name).map Value.text = some text := by
  rw [← h.getElem?_of_find? hfind, Condition.holds]
  cases e.data[i]? with
  | none => simp
  | some p =>
    show (Operand.text text).equals p.2 = true ↔ some p.2.text = some text
    rw [Operand.equals_text, beq_iff_eq, Option.some_inj]

/-- A comparison of a column with a quoted literal chooses the entries in which the text of the
column is that of the literal. -/
theorem Table.choose_quoted {t : Table} {column : Column} (hcolumn : column ∈ t.schema.columns)
    (text : String) {es : List Entry} (hes : ∀ e ∈ es, e.Fits t.schema) :
    ∃ choice, t.choose (.dependencies [⟨column.name, .equals, .ofQuoted text⟩]) es = .ok choice ∧
      choice.chosen es =
        es.filter fun e => (e.get? column.name).map Value.text = some text := by
  obtain ⟨i, c, hfind⟩ := Schema.exists_find?_of_mem hcolumn
  refine ⟨.every [⟨i, .equals, .text text⟩], ?_, ?_⟩
  · rw [Table.choose, Table.conditions, List.mapM_cons, Condition.ofDependency_quoted hfind]
    rfl
  · refine List.filter_congr fun e he => ?_
    have hiff := Condition.holds_quoted_iff (hes e he) hfind text
    rw [List.all_cons, List.all_nil, Bool.and_true, Bool.eq_iff_iff, hiff, decide_eq_true_iff]

end RecordStore

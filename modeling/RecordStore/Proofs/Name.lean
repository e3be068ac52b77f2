import RecordStore.Proofs.Token.Spelling
import RecordStore.Schema

/-!
# Valid names

A valid name is free of blanks and of every character that queries or table files are made of, and
so is the name of each column of a valid schema.

- `Name.notMem_of_check`, `Name.isBlank_of_check`: what a name is free of;
- `Name.isWord_of_check`: a name is a word of the query language;
- `Schema.check_eq_ok_iff`: a valid schema has valid names for its columns, each once.
-/

namespace RecordStore

namespace Name

variable {name : String}

theorem ne_empty_of_check (h : check name = .ok ()) : name ≠ "" := by
  have hne := ((check_eq_ok_iff name).1 h).1
  simpa using hne

/-- A valid name is free of the characters with a meaning of their own. -/
theorem notMem_of_check (h : check name = .ok ()) {c : Char} (hc : c ∈ reserved) :
    c ∉ name.toList := by
  intro hmem
  have hallowed := ((check_eq_ok_iff name).1 h).2.1 c hmem
  simp only [allowed, Bool.and_eq_true, Bool.not_eq_true', List.contains_eq_mem,
    decide_eq_false_iff_not] at hallowed
  exact hallowed.2 hc

theorem isBlank_of_check (h : check name = .ok ()) {c : Char} (hc : c ∈ name.toList) :
    Text.isBlank c = false := by
  have hallowed := ((check_eq_ok_iff name).1 h).2.1 c hc
  simp only [allowed, Bool.and_eq_true, Bool.not_eq_true'] at hallowed
  exact hallowed.1

/-- The characters of a valid name are others than the reserved ones. -/
theorem ne_of_check (h : check name = .ok ()) {c d : Char} (hc : c ∈ name.toList)
    (hd : d ∈ reserved) : c ≠ d := by
  rintro rfl
  exact notMem_of_check h hd hc

theorem isQuote_of_check (h : check name = .ok ()) {c : Char} (hc : c ∈ name.toList) :
    Token.isQuote c = false := by
  simp [Token.isQuote, ne_of_check h hc (d := '\'') (by decide),
    ne_of_check h hc (d := '"') (by decide)]

/-- A valid name is a word of the query language. -/
theorem isWord_of_check (h : check name = .ok ()) : IsWord name := by
  obtain ⟨hne, -, hkeyword⟩ := (check_eq_ok_iff name).1 h
  refine ⟨hne, ?_, ?_, ofWord?_eq_none_iff.1 hkeyword⟩
  · intro c hc
    exact ⟨isBlank_of_check h hc, ne_of_check h hc (by decide), ne_of_check h hc (by decide),
      ne_of_check h hc (by decide)⟩
  · intro c hc
    exact isQuote_of_check h (List.mem_of_head? hc)

end Name

namespace Schema

variable {schema : Schema}

theorem checkColumns_eq_ok_iff {earlier : List String} {columns : List Column} :
    checkColumns earlier columns = .ok () ↔
      (∀ c ∈ columns, Name.check c.name = .ok ()) ∧ (columns.map (·.name)).Nodup ∧
        ∀ c ∈ columns, c.name ∉ earlier := by
  induction columns generalizing earlier with
  | nil => simp [checkColumns]
  | cons column columns ih =>
    rw [checkColumns, List.map_cons, List.nodup_cons, List.forall_mem_cons, List.forall_mem_cons]
    split
    · next hname => simp [hname]
    · next hname =>
      split
      · next hearlier => simp [List.contains_iff_mem.1 hearlier]
      · next hearlier =>
        have hfresh : (∀ c ∈ columns, c.name ∉ earlier ++ [column.name]) ↔
            column.name ∉ columns.map (·.name) ∧ ∀ c ∈ columns, c.name ∉ earlier := by
          simp only [List.mem_append, List.mem_singleton, not_or, List.mem_map, not_exists, not_and]
          exact ⟨fun h => ⟨fun c hc => (h c hc).2, fun c hc => (h c hc).1⟩,
            fun h c hc => ⟨h.2 c hc, h.1 c hc⟩⟩
        rw [ih, hfresh]
        have hnew : column.name ∉ earlier := mt List.contains_iff_mem.2 hearlier
        tauto

/-- A schema is valid exactly if it has a column and its columns have valid names, no two the
same. -/
theorem check_eq_ok_iff : schema.check = .ok () ↔
    schema.columns ≠ [] ∧ (∀ c ∈ schema.columns, Name.check c.name = .ok ()) ∧
      (schema.columns.map (·.name)).Nodup := by
  rw [check]
  split
  · next hempty => simp [List.isEmpty_iff.1 hempty]
  · next hne =>
    rw [checkColumns_eq_ok_iff]
    simp [List.isEmpty_iff.not.1 hne]

/-- Every column of a valid schema has a valid name. -/
theorem name_of_check (h : schema.check = .ok ()) :
    ∀ c ∈ schema.columns, Name.check c.name = .ok () := (check_eq_ok_iff.1 h).2.1

/-- A valid schema has a column. -/
theorem columns_ne_nil_of_check (h : schema.check = .ok ()) : schema.columns ≠ [] :=
  (check_eq_ok_iff.1 h).1

end Schema

end RecordStore

import RecordStore.Proofs.Store.Execution
import RecordStore.Proofs.Store.Step
import RecordStore.Proofs.Table.Update

/-!
# What an answer consists of

Entries are decoded with the schema of the handle, and new values are coerced to the types of its
columns. So whatever stands in the file, the entries that a query answers fit the schema of its
table. A query changes no schema, so this is so for a whole batch.

- `isStored_of_select`: the entries of the records that a target is about fit the schema, and their
  ids are found again;
- `Table.query_fits`: so those that a query answers fit the schema;
- `Store.exists_parts`: the answer of a batch has one part for each query, of which everything is
  true that is true of what a query on the table answers;
- `Store.query_fits`: each entry that a batch answers fits the schema of a registered table.
-/

namespace RecordStore

/-! ## Records -/

/-- An entry that is decoded with a schema fits it. -/
theorem RawRecord.fits_of_decode {raw : RawRecord} {schema : Schema} {e : Entry}
    (h : raw.decode schema = .ok e) : e.Fits schema := by
  obtain ⟨hlength, hdata, -, -⟩ := decode_eq_ok_iff.1 h
  exact columns_of_mapM_decodeField hlength hdata

/-- The entry of a record that was found in a text is one that a file can hold. -/
theorem RawRecord.isStored_of_decode {text : String} {offset : Nat} {raw : RawRecord}
    {schema : Schema} {e : Entry} (hfound : .ok raw ∈ recordsFrom text offset)
    (h : raw.decode schema = .ok e) : e.IsStored schema := by
  obtain ⟨r, start, rfl⟩ := exists_record_of_mem_recordsFrom hfound
  exact (Record.decode_found_eq_ok_iff.1 h).isStored

namespace Table

variable {schema : Schema} {found : List (Except Corruption RawRecord)}

theorem exists_raw_of_selectId {id : String} {s : Selected}
    (h : selectId schema id found = .ok (some s)) :
    ∃ raw, .ok raw ∈ found ∧ raw.decode schema = .ok s.entry := by
  induction found with
  | nil => cases h
  | cons r found ih =>
    cases r with
    | error corruption => cases h
    | ok r =>
      rw [selectId] at h
      split at h
      · obtain ⟨e, he, hs⟩ := map_eq_ok_iff.1 h
        cases hs
        exact ⟨r, List.mem_cons_self, he⟩
      · obtain ⟨raw, hraw, hdecode⟩ := ih h
        exact ⟨raw, List.mem_cons_of_mem _ hraw, hdecode⟩

theorem exists_raw_of_selectWhere {cs : List Condition} {selected : List Selected}
    (h : selectWhere schema cs found = .ok selected) :
    ∀ s ∈ selected, ∃ raw, .ok raw ∈ found ∧ raw.decode schema = .ok s.entry := by
  induction found generalizing selected with
  | nil =>
    cases h
    exact List.forall_mem_nil _
  | cons r found ih =>
    cases r with
    | error corruption => cases h
    | ok r =>
      obtain ⟨e, he, h⟩ := bind_eq_ok_iff.1 h
      obtain ⟨others, hothers, h⟩ := bind_eq_ok_iff.1 h
      have hbehind : ∀ s ∈ others, ∃ raw, .ok raw ∈ .ok r :: found ∧
          raw.decode schema = .ok s.entry := by
        intro s hs
        obtain ⟨raw, hraw, hdecode⟩ := ih hothers s hs
        exact ⟨raw, List.mem_cons_of_mem _ hraw, hdecode⟩
      split at h
      · cases h
        exact List.forall_mem_cons.2 ⟨⟨r, List.mem_cons_self, he⟩, hbehind⟩
      · cases h
        exact hbehind

/-- The entries that a target is about are ones that a file can hold under the schema of the table,
whatever stands in the file. -/
theorem isStored_of_select {t : Table} {text : String} {target : Target} {selected : List Selected}
    (h : t.select text target = .ok selected) : ∀ s ∈ selected, s.entry.IsStored t.schema := by
  obtain ⟨header, -, h⟩ := bind_eq_ok_iff.1 h
  intro s hs
  suffices hraw : ∃ raw, .ok raw ∈ recordsFrom text header.length ∧
      raw.decode t.schema = .ok s.entry by
    obtain ⟨raw, hfound, hdecode⟩ := hraw
    exact RawRecord.isStored_of_decode hfound hdecode
  cases target with
  | entry id =>
    obtain ⟨choice, hchoice, h⟩ := bind_eq_ok_iff.1 h
    cases choice with
    | none => cases h
    | some chosen =>
      cases h
      rw [List.mem_singleton.1 hs]
      exact exists_raw_of_selectId (mapError_eq_ok_iff.1 hchoice)
  | dependencies ds =>
    obtain ⟨cs, -, h⟩ := bind_eq_ok_iff.1 h
    exact exists_raw_of_selectWhere (mapError_eq_ok_iff.1 h) s hs

/-! ## Queries -/

/-- Whether a query took time or not, its entry has the same columns. -/
theorem fits_timed {e : Entry} (h : e.Fits schema) (time : UInt64) : (e.timed time).Fits schema := h

variable {t : Table} {files : FileTree}

theorem add_fits (newId : String) (values : List Literal) :
    AllOrNothing files (fun answer _ => ∀ e ∈ answer, e.Fits t.schema)
      (t.add newId values files) := by
  refine .bind (.ofExcept _) fun data hdata => ?_
  refine .map (fun _ => _) (.change _ _) fun _ _ _ => ?_
  exact List.forall_mem_singleton.2 (fits_of_newRow hdata newId)

theorem get_fits (elapsed : UInt64) (target : Target) :
    AllOrNothing files (fun answer _ => ∀ e ∈ answer, e.Fits t.schema)
      (t.get elapsed target files) := by
  refine .bind (.ask _ _) fun text _ => ?_
  refine .map _ (.ofExcept _) fun selected _ h => ?_
  exact List.forall_mem_map.2 fun s hs => fits_timed (isStored_of_select h.2 s hs).fits elapsed

theorem remove_fits (target : Target) :
    AllOrNothing files (fun answer _ => ∀ e ∈ answer, e.Fits t.schema)
      (t.remove target files) := by
  refine .bind (.ask _ _) fun text htext => ?_
  refine .bind (.ofExcept _) fun selected hselected => ?_
  split
  · exact List.forall_mem_nil _
  · refine .map (fun _ => _) (replaceContent_effect htext _) fun _ _ _ => ?_
    exact List.forall_mem_map.2 fun s hs => (isStored_of_select hselected s hs).fits

theorem set_fits (elapsed : UInt64) (target : Target) (values : List Literal) :
    AllOrNothing files (fun answer _ => ∀ e ∈ answer, e.Fits t.schema)
      (t.set elapsed target values files) := by
  refine .bind (.ofExcept _) fun row hrow => ?_
  refine .bind (.ask _ _) fun text htext => ?_
  refine .bind (.ofExcept _) fun selected hselected => ?_
  split
  · exact List.forall_mem_nil _
  · refine .map (fun _ => _) (replaceContent_effect htext _) fun _ _ _ => ?_
    rw [List.map_map]
    refine List.forall_mem_map.2 fun s hs => fits_timed ?_ elapsed
    -- new values have the types of their columns
    have hfits := (isStored_of_select hselected s hs).fits
    show (replaceValues row s.entry).Fits t.schema
    rw [replaceValues_eq_overwrite hrow hfits]
    exact hfits.overwrite (coerceRow_eq_ok_iff.1 hrow).1

/-- Every entry that a query answers fits the schema of the table. -/
theorem query_fits (t : Table) (files : FileTree) (c : Circumstances) (q : Query) :
    AllOrNothing files (fun result _ => ∀ e ∈ result.1, e.Fits t.schema) (t.query c q files) := by
  rw [query]
  split
  · exact (AllOrNothing.ofExcept _).mono fun _ _ h => by cases h.2
  · cases q with
    | add table values => exact .map _ (add_fits c.newId values) fun _ _ h => h
    | get table target => exact .map _ (get_fits c.elapsed target) fun _ _ h => h
    | remove table target => exact .map _ (remove_fits target) fun _ _ h => h
    | set table target values => exact .map _ (set_fits c.elapsed target values) fun _ _ h => h
    | drop table =>
      exact .map (fun _ => _) (AllOrNothing.change _ _) fun _ _ _ => List.forall_mem_nil _

end Table

/-! ## Batches -/

/-- After a query every table is found that was found before, and its schema is the same. -/
theorem Database.exists_of_find?_replace {db : Database} {t t' u : Table} {table name : String}
    (hfind : db.find? table = some t) (hname : t'.name = t.name) (hschema : t'.schema = t.schema)
    (h : (db.replace t').find? name = some u) :
    ∃ u', db.find? name = some u' ∧ u'.schema = u.schema := by
  rw [Database.find?_replace_eq_map] at h
  obtain ⟨u', hu', rfl⟩ := Option.map_eq_some_iff.1 h
  refine ⟨u', hu', ?_⟩
  split
  · next heq =>
    -- two tables of one name are found under it, so they are the same
    have hsame : table = name := by
      rw [← Database.name_of_find? hfind, ← Database.name_of_find? hu', ← hname,
        beq_iff_eq.1 heq]
    rw [hsame, hu'] at hfind
    cases hfind
    exact hschema.symm
  · rfl

namespace Store

/-- What is true of every entry that a query answers on a table is true of every entry that a batch
answers: the answer has one part for each query, with entries of the table that is registered under
the name in the query. -/
theorem exists_parts {P : Schema → Query → Entry → Prop} {circumstances : Nat → Circumstances}
    {qs : QuerySet} {s s' : Store} {answer : EntrySet}
    (hP : ∀ n (t t' : Table) q files files' answer,
      t.query (circumstances n) q files = .ok (answer, t') files' → ∀ e ∈ answer, P t.schema q e)
    (h : query circumstances qs s = .ok answer s') :
    ∃ parts : List EntrySet, answer = parts.flatten ∧
      List.Forall₂ (fun q part =>
        ∃ t, s.database.find? q.table = some t ∧ ∀ e ∈ part, P t.schema q e) qs parts := by
  induction qs generalizing circumstances s answer with
  | nil =>
    cases h
    exact ⟨[], rfl, .nil⟩
  | cons q qs ih =>
    obtain ⟨first, s₁, hfirst, hrest⟩ := bind_run_eq_ok_iff.1 h
    obtain ⟨others, s₂, hothers, hpure⟩ := bind_run_eq_ok_iff.1 hrest
    cases hpure
    have heffect := queryOne_effect (circumstances 0) q s
    rw [hfirst] at heffect
    obtain ⟨t, t', files', hfind, hrun, rfl⟩ := heffect
    have hchange := Table.query_effect t s.files (circumstances 0) q
    rw [hrun] at hchange
    obtain ⟨hname, hschema, -⟩ := hchange.same
    obtain ⟨parts, rfl, hparts⟩ := ih (fun n => hP (n + 1)) hothers
    refine ⟨first :: parts, rfl, .cons ⟨t, hfind, hP 0 t t' q _ _ _ hrun⟩ (hparts.imp ?_)⟩
    rintro q' part ⟨u, hu, hentries⟩
    obtain ⟨u', hu', hsame⟩ := Database.exists_of_find?_replace hfind hname hschema hu
    exact ⟨u', hu', fun e he => hsame ▸ hentries e he⟩

/-- The schemas of the registered tables. -/
def schemas (s : Store) : List Schema := s.database.tables.map (·.schema)

/-- Every entry that a batch answers fits the schema of a table that was registered. -/
theorem query_fits {circumstances : Nat → Circumstances} {qs : QuerySet} {s s' : Store}
    {answer : EntrySet} (h : query circumstances qs s = .ok answer s') :
    ∀ e ∈ answer, ∃ schema ∈ s.schemas, e.Fits schema := by
  obtain ⟨parts, rfl, hparts⟩ := exists_parts (P := fun schema _ e => e.Fits schema)
    (fun n t t' q files files' answer hrun => by
      have hfits := t.query_fits files (circumstances n) q
      rw [hrun] at hfits
      exact hfits) h
  intro e he
  obtain ⟨part, hpart, he⟩ := List.mem_flatten.1 he
  obtain ⟨q, -, t, hfind, hfits⟩ := exists_of_mem_of_forall₂ hparts.flip hpart
  exact ⟨t.schema, List.mem_map_of_mem (List.mem_of_find?_eq_some hfind), hfits e he⟩

theorem execute_fits {circumstances : Nat → Circumstances} {text : String} {s s' : Store}
    {answer : EntrySet} (h : execute circumstances text s = .ok answer s') :
    ∀ e ∈ answer, ∃ schema ∈ s.schemas, e.Fits schema := by
  unfold execute at h
  split at h
  · exact query_fits h
  · cases h

end Store

end RecordStore

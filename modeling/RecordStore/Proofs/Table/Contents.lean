import RecordStore.Proofs.Store.Execution
import RecordStore.Proofs.Table.Effect
import RecordStore.Proofs.Table.Refusal
import RecordStore.Proofs.Table.Simulation

/-!
# What a table holds

As long as a table is not dropped, its file is the header and the records of some entries. Nothing
is assumed of the temporary file beside it, so a query may fail for want of that one; what a query
that succeeds leaves is such a file again.

- `Table.IsMade`: the name and the columns of a table are valid;
- `Table.Holds`: the file of a table and its entries;
- `Created.holds`, `Holds.query`: a new table holds no entries, and what a query leaves;
- `Holds.step`, `Holds.run`: what queries leave, one after the other, whether they succeed or not;
- `handle_of_query`: what becomes of the handle;
- `Holds.get`: asking for all entries.
-/

namespace RecordStore.Table

variable {t t' : Table} {files files' : FileTree} {place : Place} {rows : List Entry}

/-- The name and the columns of a table are valid, as those of every table that was made. -/
structure IsMade (t : Table) : Prop where
  name_valid : Name.check t.name = .ok ()
  schema_valid : t.schema.check = .ok ()

/-- At a place stands the file of a table with these entries. -/
structure Holds (t : Table) (files : FileTree) (place : Place) (rows : List Entry) : Prop where
  leads : files.LeadsTo t.path place
  found : files.find? place =
    some (.file (String.ofList (tableChars t.name t.schema rows)).toUTF8)
  stored : ∀ e ∈ rows, e.IsStored t.schema

theorem Created.isMade {config : StoreConfig} {name : String} {schema : Schema}
    (h : t.Created config name schema files files') : t.IsMade := by
  rw [h.handle]
  exact ⟨h.name_valid, h.schema_valid⟩

/-- A new table holds no entries. -/
theorem Created.holds {config : StoreConfig} {name : String} {schema : Schema}
    (h : t.Created config name schema files files') (hleads : files'.LeadsTo t.path place)
    (hheader : files'.find? place = some (.file (Header.encode name schema).toUTF8)) :
    t.Holds files' place [] := by
  refine ⟨hleads, ?_, List.forall_mem_nil _⟩
  rw [hheader, h.handle, tableChars, List.flatMap_nil, List.append_nil]
  rfl

/-- Only the query that drops a table changes its handle. -/
theorem handle_of_query {c : Circumstances} {q : Query} {answer : EntrySet}
    (h : t.query c q files = .ok (answer, t') files') :
    (∃ table, q = .drop table) ∧ t' = { t with dropped := true } ∨
      (∀ table, q ≠ .drop table) ∧ t' = t := by
  obtain ⟨-, h⟩ := query_eq_ok_iff.1 h
  cases q with
  | add table values => exact .inr ⟨by simp, (return_eq_ok_iff.1 h).2⟩
  | get table target => exact .inr ⟨by simp, (return_eq_ok_iff.1 h).2⟩
  | remove table target => exact .inr ⟨by simp, (return_eq_ok_iff.1 h).2⟩
  | set table target values => exact .inr ⟨by simp, (return_eq_ok_iff.1 h).2⟩
  | drop table =>
    simp only [run, bind, EStateM.bind] at h
    split at h
    · cases h
      exact .inl ⟨⟨table, rfl⟩, rfl⟩
    · cases h

namespace Holds

theorem hasFile (h : t.Holds files place rows) : files.HasFile t.path place := ⟨h.leads, _, h.found⟩

theorem readText (h : t.Holds files place rows) :
    files.readText t.path = .ok (String.ofList (tableChars t.name t.schema rows)) :=
  FileTree.readText_eq_ok h.leads h.found

/-- The file of a table is read as the entries that it holds. -/
theorem readEntries (h : t.Holds files place rows) (hmade : t.IsMade) :
    readEntries t.schema (String.ofList (tableChars t.name t.schema rows)) = .ok rows := by
  obtain ⟨l, hchars, rfl, -⟩ :=
    exists_layout_tableChars hmade.name_valid hmade.schema_valid h.stored
  rw [← hchars]
  exact l.readEntries_chars

/-- A file that is read as a header and records holds the entries of these. -/
theorem of_readText (hleads : files.LeadsTo t.path place)
    (hread : files.readText t.path = .ok (String.ofList (tableChars t.name t.schema rows)))
    (hstored : ∀ e ∈ rows, e.IsStored t.schema) : t.Holds files place rows := by
  obtain ⟨place', hleads', hfound⟩ := FileTree.readText_eq_ok_iff.1 hread
  cases hleads.unique hleads'
  exact ⟨hleads, hfound, hstored⟩

/-- The file of a table that was left alone holds the same entries. -/
theorem of_kept (h : t.Holds files place rows) (hkeeps : files.KeepsFolders files')
    (hkept : files'.find? place = files.find? place) : t.Holds files' place rows := by
  refine ⟨h.leads.of_keepsFolders hkeeps ?_, hkept.trans h.found, h.stored⟩
  rw [hkept]
  exact h.leads.notFolder

/-- Asking for all entries answers them in their order. -/
theorem get (h : t.Holds files place rows) (hmade : t.IsMade) (hlive : t.dropped = false)
    (c : Circumstances) (table : String) :
    t.query c (.get table (.dependencies [])) files =
      .ok (rows.map (Entry.timed c.elapsed), t) files := by
  obtain ⟨l, hchars, hrows, -⟩ :=
    exists_layout_tableChars hmade.name_valid hmade.schema_valid h.stored
  have hread := h.readText
  rw [← hchars] at hread
  have hget : t.get c.elapsed (.dependencies []) files = _ := get_eq l hread c.elapsed _
  have hall : (Choice.every []).chosen l.entries = rows := by
    rw [hrows]
    exact List.filter_true rows
  have hchoose : t.choose (.dependencies []) l.entries = .ok (.every []) := rfl
  simp only [hchoose, hall] at hget
  rw [Table.query, hlive, if_neg Bool.false_ne_true]
  simp only [run, bind, EStateM.bind, hget]
  rfl

/-! ## One query -/

variable {c : Circumstances} {q : Query} {answer : EntrySet}

/-- An entry whose values make a row can be added, and the table then holds one more. -/
theorem exists_add (h : t.Holds files place rows) (hid : IsRecordId c.newId)
    {values : List Literal} {data : List (String × Value)}
    (hrow : newRow t.schema values = .ok data) :
    ∃ files', t.add c.newId values files = .ok [{ id := c.newId, data }] files' ∧
      t.Holds files' place (rows ++ [{ id := c.newId, data }]) := by
  have happend := FileTree.append_eq_ok_iff.2
    ⟨place, _, h.leads, h.found, (rfl : _ = files.put place (.file
      (_ ++ (Entry.mk c.newId data none).encode.toUTF8)))⟩
  refine ⟨_, add_eq hrow happend, h.leads.put h.leads _, ?_, ?_⟩
  · rw [FileTree.find?_put_self _ _ h.leads.ne_nil, tableChars_concat, String.ofList_append]
    simp [Entry.encode]
  · exact List.forall_mem_append.2 ⟨h.stored, List.forall_mem_singleton.2
      ⟨fits_of_newRow hrow c.newId, hid, rfl⟩⟩

/-- After an entry was added the table holds one more. -/
theorem add (h : t.Holds files place rows) (hid : IsRecordId c.newId) {values : List Literal}
    (hadd : t.add c.newId values files = .ok answer files') :
    ∃ rows', t.Holds files' place rows' := by
  cases hrow : newRow t.schema values with
  | error e =>
    simp only [Table.add, bind, EStateM.bind, hrow] at hadd
    cases hadd
  | ok data =>
    obtain ⟨files'', hdone, hholds⟩ := h.exists_add hid hrow
    cases hadd.symm.trans hdone
    exact ⟨_, hholds⟩

/-- After entries were removed or set, the table holds those that are left and the new ones. -/
theorem mutate (h : t.Holds files place rows) (hmade : t.IsMade) {target : Target}
    (htarget : q.target? = some target) (hmutation : q.isMutation = true)
    (hleads : files'.LeadsTo t.path place)
    (hrun : t.query c q files = .ok (answer, t') files') : ∃ rows', t.Holds files' place rows' := by
  obtain ⟨l, hchars, hrows, hreplaced⟩ :=
    exists_layout_tableChars hmade.name_valid hmade.schema_valid h.stored
  have hread := h.readText
  rw [← hchars] at hread
  obtain ⟨choice, written, -, -, hstorable, hrewrite⟩ :=
    exists_rewrite htarget hmutation hread hrun
  have hupdate : (fun e => (q.update e).toList.flatMap Entry.encodeChars) =
      updateChars q.update := by
    funext e
    rw [updateChars]
    cases q.update e with
    | none => rfl
    | some e' => exact List.flatMap_singleton _ e'
  refine ⟨choice.replace (fun e => (q.update e).toList) rows, .of_readText hleads ?_ ?_⟩
  · rw [← hreplaced, hupdate]
    exact readText_of_rewrite hread hrewrite
  · intro e he
    obtain ⟨e', he', rfl | he⟩ := Choice.mem_replace he
    · exact h.stored e he'
    · exact hstorable e' e (h.stored e' he') (Option.mem_toList.1 he)

/-- After a query that does not drop the table, it still holds entries. -/
theorem query (h : t.Holds files place rows) (hmade : t.IsMade) (hid : IsRecordId c.newId)
    (hrun : t.query c q files = .ok (answer, t') files') (hlive : t'.dropped = false) :
    ∃ rows', t'.Holds files' place rows' := by
  have heffect := query_effect t files c q
  rw [hrun] at heffect
  have hleads := heffect.leadsTo h.leads
  obtain ⟨-, rfl⟩ | ⟨hkeeps, rfl⟩ := handle_of_query hrun
  · cases hlive
  · cases q with
    | add table values =>
      rw [Table.query, hlive, if_neg Bool.false_ne_true] at hrun
      exact h.add hid (return_eq_ok_iff.1 hrun).1
    | get table target =>
      have honly : t'.OnlyReads files (.get table target) := trivial
      have hreads := query_onlyReads honly c
      rw [hrun] at hreads
      obtain ⟨-, rfl⟩ := hreads
      exact ⟨rows, h⟩
    | remove table target => exact h.mutate hmade rfl rfl hleads hrun
    | set table target values => exact h.mutate hmade rfl rfl hleads hrun
    | drop table => exact absurd rfl (hkeeps table)

/-! ## Queries one after the other -/

variable {x : Circumstances × Query} {xs : List (Circumstances × Query)}

/-- After a query, a table that is not dropped holds entries. -/
theorem step (h : t.Holds files place rows) (hmade : t.IsMade) (hid : IsRecordId x.1.newId)
    (hlive : (stepFiles (t, files) x).2.1.dropped = false) :
    (stepFiles (t, files) x).2.1 = t ∧
      ∃ rows', t.Holds (stepFiles (t, files) x).2.2 place rows' := by
  have heffect := query_effect t files x.1 x.2
  cases hquery : t.query x.1 x.2 files with
  | error e files' =>
    rw [hquery] at heffect
    obtain rfl : files' = files := heffect
    have hstep : stepFiles (t, files') x = (.error e, t, files') := by simp only [stepFiles, hquery]
    rw [hstep]
    exact ⟨rfl, rows, h⟩
  | ok result files' =>
    obtain ⟨answer, t'⟩ := result
    have hstep : stepFiles (t, files) x = (.ok answer, t', files') := by
      simp only [stepFiles, hquery]
    rw [hstep] at hlive ⊢
    obtain ⟨rows', hrows⟩ := h.query hmade hid hquery hlive
    obtain ⟨-, rfl⟩ | ⟨-, rfl⟩ := handle_of_query hquery
    · cases hlive
    · exact ⟨rfl, rows', hrows⟩

/-- After any queries, a table that is not dropped holds entries. -/
theorem run (h : t.Holds files place rows) (hmade : t.IsMade)
    (hids : ∀ x ∈ xs, IsRecordId x.1.newId)
    (hlive : (runSteps stepFiles (t, files) xs).2.1.dropped = false) :
    (runSteps stepFiles (t, files) xs).2.1 = t ∧
      ∃ rows', t.Holds (runSteps stepFiles (t, files) xs).2.2 place rows' := by
  induction xs generalizing files rows with
  | nil => exact ⟨rfl, rows, h⟩
  | cons x xs ih =>
    obtain ⟨hid, hids⟩ := List.forall_mem_cons.1 hids
    simp only [runSteps] at hlive ⊢
    -- a table that is dropped by the first query would stay so
    have hfirst : (stepFiles (t, files) x).2.1.dropped = false := by
      refine Bool.eq_false_iff.2 fun hdropped => ?_
      have hlast := runSteps_of_dropped hdropped (stepFiles (t, files) x).2.2 xs
      rw [hlast, hdropped] at hlive
      cases hlive
    obtain ⟨hhandle, rows', hrows⟩ := h.step hmade hid hfirst
    have hstate : (stepFiles (t, files) x).2 = (t, (stepFiles (t, files) x).2.2) :=
      Prod.ext hhandle rfl
    rw [hstate] at hlive ⊢
    exact ih hrows hids hlive

end Holds

end RecordStore.Table

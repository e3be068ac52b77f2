import RecordStore.Proofs.Store.Step

/-!
# Operations that fail

An operation on a store either succeeds or leaves the store as it was: every check comes before the
first write, and a content is written beside the old one before it takes its place.

- `unchanged_of_error`: a query that fails changes nothing, nor does one that reads or that no
  record satisfies; making or adding a table that fails changes neither the registered tables nor a
  file.
-/

namespace RecordStore

/-- A failed query leaves the table and the files as they were, whatever stands in the file, and so
does a query that only reads. A failed query on a store leaves the whole store. Where a table cannot
be made, the registered tables and all files are as they were and at most the folder of the tables
was made; where a table cannot be added, nothing changes. -/
theorem unchanged_of_error :
    (∀ (t : Table) (files : FileTree) (c : Circumstances) (q : Query),
      (∀ e files', t.query c q files = .error e files' → files' = files) ∧
        (t.OnlyReads files q → ∀ result files',
          t.query c q files = .ok result files' → result.2 = t ∧ files' = files)) ∧
      (∀ s c q e s', Store.queryOne c q s = .error e s' → s' = s) ∧
      (∀ s name schema e s', Store.createTable name schema s = .error e s' →
        s'.database = s.database ∧
          FileTree.MadeFolders s.database.config.dataDir s.files s'.files ∧
          (s.files.isFolder s.database.config.dataDir = true → s' = s)) ∧
      ∀ s t e s', Store.addTable t s = .error e s' → s' = s := by
  refine ⟨?_, ?_, ?_, ?_⟩
  · intro t files c q
    constructor
    · intro e files' hrun
      have heffect := Table.query_effect t files c q
      rw [hrun] at heffect
      exact heffect
    · intro hreads result files' hrun
      have hnothing := Table.query_onlyReads hreads c
      rw [hrun] at hnothing
      exact hnothing
  · intro s c q e s' hrun
    have heffect := Store.queryOne_effect c q s
    rw [hrun] at heffect
    exact heffect
  · intro s name schema e s' hrun
    have heffect := Store.createTable_effect name schema s
    rw [hrun] at heffect
    obtain ⟨hdatabase, hgrows⟩ := heffect
    refine ⟨hdatabase, hgrows.madeFolders, ?_⟩
    intro hfolder
    have hfiles := hgrows.idle hfolder
    obtain ⟨database, files⟩ := s'
    subst hdatabase hfiles
    rfl
  · intro s t e s' hrun
    unfold Store.addTable at hrun
    split at hrun
    · cases hrun
    · cases hrun
      rfl

/-- A table file with a corrupt record behind one that is to be removed, and a new table in a folder
that is missing. -/
theorem unchanged_of_error_corrupt :
    ∃ (t : Table) (files : FileTree) (s : Store),
      t = { name := "T", schema := ⟨[⟨"A", .integer⟩]⟩, path := "d/T.tbl" } ∧
      files = ⟨[(["d"], .folder),
        (["d", "T.tbl"], .file "[T,0:A]\x7ba;I:5\x7d\x7bb;I:x\x7d".toUTF8)], []⟩ ∧
      s = ⟨{ config := { dataDir := "d/e" }, tables := [t] }, files⟩ ∧
      (∃ e files', t.query ⟨"", 0⟩ (.remove "T" (.dependencies [⟨"A", .equals, .bare "5"⟩]))
        files = .error e files' ∧ files' = files) ∧
      (∃ result files', t.query ⟨"", 0⟩ (.get "T" (.entry "a")) files = .ok result files' ∧
        result.2 = t ∧ files' = files) ∧
      (∃ e s', Store.queryOne ⟨"", 0⟩ (.set "T" (.entry "a") [.bare "x"]) s = .error e s' ∧
        s' = s) ∧
      (∃ e s', Store.createTable "x/U" t.schema s = .error e s' ∧ s'.database = s.database ∧
        FileTree.MadeFolders "d/e" files s'.files) ∧
      ∃ e s', Store.addTable t s = .error e s' ∧ s' = s := by
  refine ⟨_, _, _, rfl, rfl, rfl, ?_, ?_, ?_, ?_, ?_⟩
  · exact exists_of_failed (by decide +kernel) (unchanged_of_error.1 _ _ _ _).1
  · refine exists_of_succeeds (p := fun _ _ => true) (by decide +kernel) ?_
    intro result files' hrun _
    exact (unchanged_of_error.1 _ _ _ (.get "T" (.entry "a"))).2 trivial result files' hrun
  · exact exists_of_failed (by decide +kernel) (unchanged_of_error.2.1 _ _ _)
  · refine exists_of_failed (by decide +kernel) fun e s' hrun => ?_
    obtain ⟨hdatabase, hfolders, -⟩ := unchanged_of_error.2.2.1 _ _ _ e s' hrun
    exact ⟨hdatabase, hfolders⟩
  · exact exists_of_failed (by decide +kernel) (unchanged_of_error.2.2.2 _ _)

end RecordStore

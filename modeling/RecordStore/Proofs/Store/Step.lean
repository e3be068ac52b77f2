import RecordStore.Database
import RecordStore.Proofs.Table.Effect
import RecordStore.Proofs.Table.Simulation

/-!
# What a command does to a store

A store is worked on by commands, each of which makes a table or runs a query. This is said once for
each of them; that a whole run keeps a property follows by induction over its commands.

- `Store.createTable_effect`, `Store.queryOne_effect`: what a command has done, or has left alone if
  it failed;
- `Command`, `Store.perform`: one command; `Store.Step`, `step_perform`: all that it can do;
- `Store.after`: the store after several;
- `Store.after_induction`: what every command keeps is kept by all of them.
-/

namespace RecordStore

variable {s : Store}

namespace Store

/-- Making a table that fails has made folders at most; one that succeeds has registered a new table
under a free name. -/
theorem createTable_effect (name : String) (schema : Schema) (s : Store) :
    match createTable name schema s with
    | .ok t s' =>
      s.database.find? name = none ∧
        Table.Created s.database.config name schema s.files t s'.files ∧
        s'.database = s.database.insert t
    | .error _ s' =>
      s'.database = s.database ∧
        FileTree.Grows s.database.config.dataDir s.files s'.files := by
  unfold createTable
  cases hfind : s.database.find? name with
  | some t => exact ⟨rfl, .refl _ _⟩
  | none =>
    have hcreate := Table.create_effect s.database.config name schema s.files
    simp only [Option.isSome_none, Bool.false_eq_true, if_false, Disk.inStore]
    cases hrun : Table.create s.database.config name schema s.files with
    | ok t files =>
      rw [hrun] at hcreate
      exact ⟨trivial, hcreate, rfl⟩
    | error e files =>
      rw [hrun] at hcreate
      exact ⟨rfl, hcreate⟩

/-- A query that fails leaves the store as it was; one that succeeds has run on the table that it
names. -/
theorem queryOne_effect (c : Circumstances) (q : Query) (s : Store) :
    match queryOne c q s with
    | .ok answer s' =>
      ∃ t t' files', s.database.find? q.table = some t ∧
        t.query c q s.files = .ok (answer, t') files' ∧
        s' = { database := s.database.replace t', files := files' }
    | .error _ s' => s' = s := by
  unfold queryOne
  cases hfind : s.database.find? q.table with
  | none => rfl
  | some t =>
    have heffect := Table.query_effect t s.files c q
    unfold Disk.inStore
    dsimp only
    cases hrun : t.query c q s.files with
    | ok result files => exact ⟨t, result.2, files, rfl, hrun, rfl⟩
    | error e files =>
      rw [hrun] at heffect
      have hfiles : files = s.files := heffect
      rw [hfiles]

end Store

/-! ## Runs -/

/-- A command to a store: to make a table, or to run a query. -/
inductive Command where
  | create (name : String) (schema : Schema)
  | query (circumstances : Circumstances) (query : Query)

namespace Store

/-- Carries out a command, and gives the answer and the store afterwards, whether it succeeds or
fails. -/
def perform (s : Store) : Command → Except QueryError EntrySet × Store
  | .create name schema =>
    match createTable name schema s with
    | .ok _ s => (.ok [], s)
    | .error e s => (.error e, s)
  | .query c q =>
    match queryOne c q s with
    | .ok answer s => (.ok answer, s)
    | .error e s => (.error e, s)

/-- What a command can do, with its answer and the store afterwards. -/
inductive Step (s : Store) : Command → Except QueryError EntrySet × Store → Prop
  | created (name : String) (schema : Schema) (t : Table) (files : FileTree)
      (free : s.database.find? name = none)
      (made : t.Created s.database.config name schema s.files files) :
      Step s (.create name schema) (.ok [], ⟨s.database.insert t, files⟩)
  | refused (name : String) (schema : Schema) (e : QueryError) (files : FileTree)
      (grows : FileTree.Grows s.database.config.dataDir s.files files) :
      Step s (.create name schema) (.error e, ⟨s.database, files⟩)
  | answered (c : Circumstances) (q : Query) (t t' : Table) (answer : EntrySet) (files : FileTree)
      (found : s.database.find? q.table = some t)
      (ran : t.query c q s.files = .ok (answer, t') files) :
      Step s (.query c q) (.ok answer, ⟨s.database.replace t', files⟩)
  | failed (c : Circumstances) (q : Query) (e : QueryError) : Step s (.query c q) (.error e, s)

/-- A command does nothing else. -/
theorem step_perform (s : Store) (x : Command) : s.Step x (s.perform x) := by
  cases x with
  | create name schema =>
    have heffect := createTable_effect name schema s
    simp only [perform]
    cases hrun : createTable name schema s with
    | ok t s' =>
      rw [hrun] at heffect
      obtain ⟨hfree, hcreated, hdatabase⟩ := heffect
      obtain ⟨database, files⟩ := s'
      subst hdatabase
      exact .created name schema t files hfree hcreated
    | error e s' =>
      rw [hrun] at heffect
      obtain ⟨hdatabase, hgrows⟩ := heffect
      obtain ⟨database, files⟩ := s'
      subst hdatabase
      exact .refused name schema e files hgrows
  | query c q =>
    have heffect := queryOne_effect c q s
    simp only [perform]
    cases hrun : queryOne c q s with
    | ok answer s' =>
      rw [hrun] at heffect
      obtain ⟨t, t', files, hfind, hquery, rfl⟩ := heffect
      exact .answered c q t t' answer files hfind hquery
    | error e s' =>
      rw [hrun] at heffect
      have hs : s' = s := heffect
      subst hs
      exact .failed c q e

/-- The store after several commands. -/
def after (s : Store) (commands : List Command) : Store := (runSteps perform s commands).2

/-- What every command keeps is kept by all of them. -/
theorem after_induction {P : Store → Prop} {commands : List Command} (h : P s)
    (hstep : ∀ s, ∀ x ∈ commands, P s → P (s.perform x).2) : P (s.after commands) := by
  induction commands generalizing s with
  | nil => exact h
  | cons x commands ih =>
    have hnext := hstep s x List.mem_cons_self h
    exact ih hnext fun s y hy => hstep s y (List.mem_cons_of_mem x hy)

end Store

end RecordStore

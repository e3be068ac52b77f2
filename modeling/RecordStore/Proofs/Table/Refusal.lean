import RecordStore.Proofs.Table.Simulation

/-!
# Refused queries

A handle knows whether its table was dropped through it. This is looked at before anything else: a
handle of a dropped table refuses every query, and any other handle answers or fails for a reason of
its own. Only a drop that succeeds makes a handle one of a dropped table.

- `NotRefused`, `NeverRefuses`: results and operations that do not report a dropped table, with
  `bind`, `mapM` and `mapError` for those that are put together;
- `run_neverRefuses`: no query on a table that was not dropped reports it as dropped;
- `Query.Drops`, `stepFiles_of_dropped`, `stepFiles_of_live`: all that a query has to do with this.
-/

namespace RecordStore

variable {α β : Type}

/-! ## Reports of a dropped table -/

/-- A result that does not report a dropped table. -/
def NotRefused (r : Except QueryError α) : Prop := ∀ name, r ≠ .error (.tableDropped name)

/-- An operation that does not report a dropped table, whatever the files are. -/
def NeverRefuses (x : Disk α) : Prop := ∀ files, NotRefused (outcome (x files))

namespace NotRefused

theorem ok (a : α) : NotRefused (.ok a) := nofun

/-- An error is the same whatever the result would have been. -/
theorem of_error {e : QueryError} (h : NotRefused (α := α) (.error e)) :
    NotRefused (α := β) (.error e) :=
  fun name he => h name (congrArg Except.error (Except.error.inj he))

theorem bind {x : Except QueryError α} {f : α → Except QueryError β} (hx : NotRefused x)
    (hf : ∀ a, NotRefused (f a)) : NotRefused (x >>= f) := by
  cases x with
  | error e => exact hx.of_error
  | ok a => exact hf a

theorem mapError {ε : Type} {f : ε → QueryError} (hf : ∀ e name, f e ≠ .tableDropped name)
    (x : Except ε α) : NotRefused (x.mapError f) := by
  cases x with
  | error e => exact fun name h => hf e name (Except.error.inj h)
  | ok a => exact ok a

theorem mapM {f : α → Except QueryError β} (hf : ∀ a, NotRefused (f a)) (as : List α) :
    NotRefused (as.mapM f) := by
  intro name h
  obtain ⟨_, a, _, _, _, ha⟩ := mapM_eq_error_iff.1 h
  exact hf a name ha

end NotRefused

namespace NeverRefuses

theorem bind {x : Disk α} {f : α → Disk β} (hx : NeverRefuses x) (hf : ∀ a, NeverRefuses (f a)) :
    NeverRefuses (x >>= f) := by
  intro files
  simp only [Bind.bind, EStateM.bind]
  have hfirst := hx files
  cases hrun : x files with
  | ok a files' => exact hf a files'
  | error e files' =>
    rw [hrun] at hfirst
    exact hfirst.of_error

theorem pure (a : α) : NeverRefuses (Pure.pure a) := fun _ => .ok a

theorem ofExcept {r : Except QueryError α} (h : NotRefused r) :
    NeverRefuses (Disk.ofExcept r) := by
  intro files
  cases r with
  | ok a => exact .ok a
  | error e => exact h

theorem ask (path : String) (question : FileTree → Except Fault α) :
    NeverRefuses (Disk.ask path question) := by
  intro files
  unfold Disk.ask
  split
  · exact .ok _
  · exact nofun

theorem change (path : String) (update : FileTree → Except Fault FileTree) :
    NeverRefuses (Disk.change path update) := by
  intro files
  unfold Disk.change
  split
  · exact .ok _
  · exact nofun

end NeverRefuses

namespace Table

/-! ## Rows and records -/

theorem coerceRow_notRefused (schema : Schema) (values : List Literal) :
    NotRefused (coerceRow schema values) := by
  unfold coerceRow
  split
  · exact nofun
  · refine .mapM (fun (l, column) => ?_) _
    show NotRefused (coerceColumn l column)
    unfold coerceColumn
    split
    · exact .ok _
    · split
      · exact .ok _
      · exact nofun

theorem newRow_notRefused (schema : Schema) (values : List Literal) :
    NotRefused (newRow schema values) := by
  refine (coerceRow_notRefused schema values).bind fun row => .mapM (fun (value, column) => ?_) _
  show NotRefused (requireValue value column)
  unfold requireValue
  split
  · exact .ok _
  · exact nofun

theorem select_notRefused (t : Table) (text : String) (target : Target) :
    NotRefused (t.select text target) := by
  have hcorrupt : ∀ (e : Corruption) name, e.error t.path ≠ .tableDropped name := nofun
  refine (NotRefused.mapError hcorrupt _).bind fun header => ?_
  cases target with
  | entry id =>
    refine (NotRefused.mapError hcorrupt _).bind fun found => ?_
    cases found with
    | none => exact nofun
    | some selected => exact .ok _
  | dependencies ds =>
    have hconditions : NotRefused (conditions t.schema ds) :=
      .mapM (fun d => .mapError nofun _) ds
    exact hconditions.bind fun cs => .mapError hcorrupt _

/-! ## Queries -/

variable (t : Table)

theorem replaceContent_neverRefuses (text : List Char) : NeverRefuses (t.replaceContent text) :=
  .bind (.change _ _) fun _ => .change _ _

theorem add_neverRefuses (newId : String) (values : List Literal) :
    NeverRefuses (t.add newId values) :=
  .bind (.ofExcept (newRow_notRefused _ _)) fun _ => .bind (.change _ _) fun _ => .pure _

theorem get_neverRefuses (elapsed : UInt64) (target : Target) :
    NeverRefuses (t.get elapsed target) :=
  .bind (.ask _ _) fun text => .bind (.ofExcept (t.select_notRefused text target)) fun _ => .pure _

theorem remove_neverRefuses (target : Target) : NeverRefuses (t.remove target) := by
  refine .bind (.ask _ _) fun text => ?_
  refine .bind (.ofExcept (t.select_notRefused text target)) fun selected => ?_
  split
  · exact .pure _
  · exact .bind (t.replaceContent_neverRefuses _) fun _ => .pure _

theorem set_neverRefuses (elapsed : UInt64) (target : Target) (values : List Literal) :
    NeverRefuses (t.set elapsed target values) := by
  refine .bind (.ofExcept (coerceRow_notRefused _ _)) fun replacements => ?_
  refine .bind (.ask _ _) fun text => ?_
  refine .bind (.ofExcept (t.select_notRefused text target)) fun selected => ?_
  split
  · exact .pure _
  · exact .bind (t.replaceContent_neverRefuses _) fun _ => .pure _

/-- No query that is run reports the table as dropped. -/
theorem run_neverRefuses (c : Circumstances) (q : Query) : NeverRefuses (t.run c q) := by
  cases q with
  | add table values => exact (t.add_neverRefuses _ values).bind fun _ => .pure _
  | get table target => exact (t.get_neverRefuses _ target).bind fun _ => .pure _
  | remove table target => exact (t.remove_neverRefuses target).bind fun _ => .pure _
  | set table target values => exact (t.set_neverRefuses _ target values).bind fun _ => .pure _
  | drop table => exact (NeverRefuses.change _ _).bind fun _ => .pure _

end Table

/-! ## The flag of a handle -/

/-- A drop that has succeeded. -/
def Query.Drops (q : Query) (answer : Except QueryError EntrySet) : Prop :=
  ∃ table entries, q = .drop table ∧ answer = .ok entries

namespace Table

variable {t : Table} {files : FileTree}

/-- The handle of a dropped table refuses every query and changes no file. -/
theorem stepFiles_of_dropped (h : t.dropped = true) (files : FileTree)
    (x : Circumstances × Query) :
    stepFiles (t, files) x = (.error (.tableDropped t.name), t, files) := by
  have hquery : t.query x.1 x.2 files = .error (.tableDropped t.name) files := by
    rw [query, if_pos h]
    rfl
  simp only [stepFiles, hquery]

/-- Queries on a dropped table leave everything as it is. -/
theorem runSteps_of_dropped (h : t.dropped = true) (files : FileTree)
    (xs : List (Circumstances × Query)) : (runSteps stepFiles (t, files) xs).2 = (t, files) := by
  induction xs with
  | nil => rfl
  | cons x xs ih => simp only [runSteps, stepFiles_of_dropped h, ih]

/-- An operation that is run for its answer leaves the handle alone, whether it succeeds or not. -/
theorem stepFiles_of_return {x : Circumstances × Query} {operation : Disk EntrySet}
    (h : t.query x.1 x.2 = do return (← operation, t)) :
    (stepFiles (t, files) x).2.1 = t := by
  simp only [stepFiles, h, bind, EStateM.bind]
  cases operation files <;> rfl

/-- Any other handle does not refuse a query, and its table is dropped if the query drops it. -/
theorem stepFiles_of_live (h : t.dropped = false) (files : FileTree) (x : Circumstances × Query) :
    NotRefused (stepFiles (t, files) x).1 ∧
      ∃ dropped, (stepFiles (t, files) x).2.1 = { t with dropped } ∧
        (dropped = true ↔ x.2.Drops (stepFiles (t, files) x).1) := by
  obtain ⟨c, q⟩ := x
  have hquery := query_of_live h c q
  have hself : t = { t with dropped := false } := by rw [← h]
  constructor
  · have hrun := t.run_neverRefuses c q files
    simp only [stepFiles, hquery]
    cases hresult : t.run c q files with
    | ok result files' => exact .ok _
    | error e files' =>
      rw [hresult] at hrun
      exact hrun.of_error
  · cases q with
    | drop table =>
      simp only [stepFiles, hquery, run, deleteFile, bind, EStateM.bind]
      split
      · next hdeleted =>
        split at hdeleted
        · cases hdeleted
          exact ⟨true, rfl, fun _ => ⟨table, [], rfl, rfl⟩, fun _ => rfl⟩
        · cases hdeleted
      · exact ⟨false, hself, by rintro ⟨⟩, by rintro ⟨_, _, _, ⟨⟩⟩⟩
    | add table values =>
      exact ⟨false, (stepFiles_of_return hquery).trans hself, by rintro ⟨⟩, by rintro ⟨_, _, ⟨⟩, _⟩⟩
    | get table target =>
      exact ⟨false, (stepFiles_of_return hquery).trans hself, by rintro ⟨⟩, by rintro ⟨_, _, ⟨⟩, _⟩⟩
    | remove table target =>
      exact ⟨false, (stepFiles_of_return hquery).trans hself, by rintro ⟨⟩, by rintro ⟨_, _, ⟨⟩, _⟩⟩
    | set table target values =>
      exact ⟨false, (stepFiles_of_return hquery).trans hself, by rintro ⟨⟩, by rintro ⟨_, _, ⟨⟩, _⟩⟩

/-- A handle keeps its name. -/
theorem name_stepFiles (t : Table) (files : FileTree) (x : Circumstances × Query) :
    (stepFiles (t, files) x).2.1.name = t.name := by
  cases h : t.dropped with
  | false =>
    obtain ⟨-, dropped, hhandle, -⟩ := stepFiles_of_live h files x
    rw [hhandle]
  | true => rw [stepFiles_of_dropped h]

end Table

end RecordStore

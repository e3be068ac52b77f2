import RecordStore.Proofs.FileTree.Folders
import RecordStore.Proofs.Table.Storage

/-!
# What a query can do to the files

A query on a table fails before it has written anything, or it succeeds and has done one of five
things: nothing, written the table file in its place, put the temporary file in its place, deleted
it, or found nothing to delete. Everything that later proofs need to know of the files follows from
this.

- `AllOrNothing`: an operation that leaves the files as they were unless it succeeds, with
  `AllOrNothing.bind` and `AllOrNothing.map` for one operation after the other;
- `Table.Effect`: what a query can do; `query_effect`: it does nothing else;
- `query_onlyReads`: a query that reads, or that no record satisfies, leaves everything as it is;
- `Effect.find?_of_ne`, `Effect.keepsFolders`, `Effect.found`: what an effect leaves alone, from
  which `Effect.leadsTo` and `Effect.isTree` follow;
- `Table.Created`: what making a table has done; `create_effect`: it does nothing else.
-/

namespace RecordStore

/-! ## All or nothing -/

/-- The end of an operation that has left the files as they were, or has succeeded with a result and
files as described. -/
def AllOrNothing {α : Type} (files : FileTree) (P : α → FileTree → Prop) :
    EStateM.Result QueryError FileTree α → Prop
  | .ok a files' => P a files'
  | .error _ files' => files' = files

namespace AllOrNothing

variable {α β : Type} {files : FileTree} {P : α → FileTree → Prop} {R : β → FileTree → Prop}
  {x : Disk α}

theorem mono {r : EStateM.Result QueryError FileTree α} {P' : α → FileTree → Prop}
    (h : AllOrNothing files P r) (himp : ∀ a files', P a files' → P' a files') :
    AllOrNothing files P' r := by
  cases r with
  | ok a files' => exact himp a files' h
  | error e files' => exact h

/-- An operation may be preceded by one that leaves the files alone. -/
theorem bind {Q : α → Prop} {f : α → Disk β}
    (hx : AllOrNothing files (fun a files' => files' = files ∧ Q a) (x files))
    (hf : ∀ a, Q a → AllOrNothing files R (f a files)) :
    AllOrNothing files R ((x >>= f) files) := by
  simp only [Bind.bind, EStateM.bind]
  cases hrun : x files with
  | error e files' =>
    rw [hrun] at hx
    exact hx
  | ok a files' =>
    rw [hrun] at hx
    obtain ⟨rfl, ha⟩ := hx
    exact hf a ha

/-- An operation may be followed by one that only turns its result into another. -/
theorem map (f : α → β) (hx : AllOrNothing files P (x files))
    (himp : ∀ a files', P a files' → R (f a) files') :
    AllOrNothing files R ((x >>= fun a => pure (f a)) files) := by
  simp only [Bind.bind, EStateM.bind]
  cases hrun : x files with
  | error e files' =>
    rw [hrun] at hx
    exact hx
  | ok a files' =>
    rw [hrun] at hx
    exact himp a files' hx

theorem ofExcept (r : Except QueryError α) :
    AllOrNothing files (fun a files' => files' = files ∧ r = .ok a) (Disk.ofExcept r files) := by
  cases r with
  | error e => rfl
  | ok a => exact ⟨rfl, rfl⟩

theorem ask (path : String) (question : FileTree → Except Fault α) :
    AllOrNothing files (fun a files' => files' = files ∧ question files = .ok a)
      (Disk.ask path question files) := by
  unfold Disk.ask
  split
  · next a hquestion => exact ⟨rfl, hquestion⟩
  · rfl

theorem change (path : String) (update : FileTree → Except Fault FileTree) :
    AllOrNothing files (fun _ files' => update files = .ok files')
      (Disk.change path update files) := by
  unfold Disk.change
  split
  · next hupdate => exact hupdate
  · rfl

end AllOrNothing

/-- A file can be made where a path that does not end with a slash leads to nothing. -/
theorem FileTree.create_eq_ok_iff {t u : FileTree} {path : String} {content : ByteArray} :
    t.create path content = .ok u ↔
      ∃ place ending, t.locate path = .ok (place, ending) ∧ ending ≠ .slash ∧
        t.lookUp place = .ok none ∧ u = t.put place (.file content) := by
  constructor
  · intro h
    obtain ⟨⟨place, ending⟩, hlocate, h⟩ := bind_eq_ok_iff.1 h
    dsimp only at h
    split at h
    · cases h
    · next hending =>
      obtain ⟨node, hlookUp, h⟩ := bind_eq_ok_iff.1 h
      split at h
      · cases h
      · next hnone =>
        rw [Bool.not_eq_true, Option.isSome_eq_false_iff, Option.isNone_iff_eq_none] at hnone
        cases h
        exact ⟨place, ending, hlocate, hending, hnone ▸ hlookUp, rfl⟩
  · rintro ⟨place, ending, hlocate, hending, hlookUp, rfl⟩
    refine bind_eq_ok_iff.2 ⟨_, hlocate, ?_⟩
    dsimp only
    rw [if_neg hending]
    exact bind_eq_ok_iff.2 ⟨_, hlookUp, rfl⟩

namespace Table

/-! ## The effect of a query -/

/-- What a query on a table can do to its handle and the files. -/
inductive Effect (t : Table) (files : FileTree) : Table → FileTree → Prop
  | nothing : Effect t files t files
  | written (place : Place) (old new : ByteArray) (leads : files.LeadsTo t.path place)
      (found : files.find? place = some (.file old)) :
      Effect t files t (files.put place (.file new))
  | replaced (place temporary : Place) (old new : ByteArray) (leads : files.LeadsTo t.path place)
      (found : files.find? place = some (.file old))
      (beside : files.LeadsTo t.temporaryPath temporary) :
      Effect t files t
        (((files.put temporary (.file new)).erase temporary).put place (.file new))
  | deleted (place : Place) (old : ByteArray) (leads : files.LeadsTo t.path place)
      (found : files.find? place = some (.file old)) :
      Effect t files { t with dropped := true } (files.erase place)
  | missing (gone : files.remove t.path = .error .notFound) :
      Effect t files { t with dropped := true } files

variable {t : Table} {files : FileTree}

/-- The content of a file that can be read is replaced, or nothing has changed: once the temporary
file is written, it can be moved. -/
theorem replaceContent_effect {text : String} (h : files.readText t.path = .ok text)
    (chars : List Char) :
    AllOrNothing files (fun _ files' => Effect t files t files')
      (t.replaceContent chars files) := by
  obtain ⟨place, hplace, hfile⟩ := FileTree.readText_eq_ok_iff.1 h
  cases hover : files.overwrite t.temporaryPath (String.ofList chars).toUTF8 with
  | error fault =>
    simp only [replaceContent, Bind.bind, EStateM.bind, Disk.change, hover]
    rfl
  | ok middle =>
    have hover' := hover
    obtain ⟨temporary, htemporary, rfl⟩ := FileTree.overwrite_eq_ok_iff.1 hover
    have hrename := FileTree.rename_eq_ok_iff.2 ⟨temporary, place, _,
      htemporary.put htemporary (String.ofList chars).toUTF8,
      FileTree.find?_put_self _ _ htemporary.ne_nil, hplace.put htemporary _, rfl⟩
    rw [replaceContent_eq_ok_iff.2 ⟨_, hover', hrename⟩]
    exact .replaced place temporary _ _ hplace hfile htemporary

theorem add_effect (newId : String) (values : List Literal) :
    AllOrNothing files (fun _ files' => Effect t files t files') (t.add newId values files) := by
  refine .bind (.ofExcept _) fun data _ => ?_
  refine .map (fun _ => _) (.change _ _) fun _ files' happend => ?_
  obtain ⟨place, old, hplace, hfile, rfl⟩ := FileTree.append_eq_ok_iff.1 happend
  exact .written place old _ hplace hfile

theorem get_effect (elapsed : UInt64) (target : Target) :
    AllOrNothing files (fun _ files' => files' = files) (t.get elapsed target files) := by
  refine .bind (.ask _ _) fun text _ => ?_
  exact .map _ (.ofExcept _) fun _ _ h => h.1

theorem remove_effect (target : Target) :
    AllOrNothing files (fun _ files' => Effect t files t files') (t.remove target files) := by
  refine .bind (.ask _ _) fun text htext => ?_
  refine .bind (.ofExcept _) fun selected _ => ?_
  split
  · exact .nothing
  · exact .map (fun _ => _) (replaceContent_effect htext _) fun _ _ h => h

theorem set_effect (elapsed : UInt64) (target : Target) (values : List Literal) :
    AllOrNothing files (fun _ files' => Effect t files t files')
      (t.set elapsed target values files) := by
  refine .bind (.ofExcept _) fun replacements _ => ?_
  refine .bind (.ask _ _) fun text htext => ?_
  refine .bind (.ofExcept _) fun selected _ => ?_
  split
  · exact .nothing
  · exact .map (fun _ => _) (replaceContent_effect htext _) fun _ _ h => h

theorem deleteFile_effect :
    AllOrNothing files (fun _ files' => Effect t files { t with dropped := true } files')
      (t.deleteFile files) := by
  refine (AllOrNothing.change _ _).mono fun _ files' hdelete => ?_
  split at hdelete
  · next hgone =>
    cases hdelete
    exact .missing hgone
  · obtain ⟨⟨place, old⟩, hfound, hremove⟩ := bind_eq_ok_iff.1 hdelete
    obtain ⟨hplace, hfile⟩ := FileTree.locateFile_eq_ok_iff.1 hfound
    cases hremove
    exact .deleted place old hplace hfile

/-- A query that fails changes nothing, and one that succeeds has one of the effects. -/
theorem query_effect (t : Table) (files : FileTree) (c : Circumstances) (q : Query) :
    AllOrNothing files (fun result files' => Effect t files result.2 files')
      (t.query c q files) := by
  rw [query]
  split
  · exact (AllOrNothing.ofExcept _).mono fun _ _ h => by cases h.2
  · cases q with
    | add table values => exact .map _ (add_effect c.newId values) fun _ _ h => h
    | get table target =>
      refine .map _ (get_effect c.elapsed target) fun _ files' h => ?_
      rw [h]
      exact .nothing
    | remove table target => exact .map _ (remove_effect target) fun _ _ h => h
    | set table target values => exact .map _ (set_effect c.elapsed target values) fun _ _ h => h
    | drop table => exact .map (fun _ => _) deleteFile_effect fun _ _ h => h

/-! ## Queries that only read -/

/-- No record that can be read in the table file satisfies the dependencies. -/
def MatchesNothing (t : Table) (files : FileTree) (ds : List Dependency) : Prop :=
  ∀ text header cs r e, files.readText t.path = .ok text → Header.decode text = .ok header →
    conditions t.schema ds = .ok cs → .ok r ∈ recordsFrom text header.length →
    r.decode t.schema = .ok e → cs.all (·.holds e) = false

/-- A query that asks for entries, or is to change those that satisfy dependencies where no record
does. -/
def OnlyReads (t : Table) (files : FileTree) : Query → Prop
  | .get _ _ => True
  | .remove _ (.dependencies ds) => t.MatchesNothing files ds
  | .set _ (.dependencies ds) _ => t.MatchesNothing files ds
  | _ => False

theorem selectWhere_eq_nil {schema : Schema} {cs : List Condition}
    {found : List (Except Corruption RawRecord)} {selected : List Selected}
    (h : selectWhere schema cs found = .ok selected)
    (hnone : ∀ r e, .ok r ∈ found → r.decode schema = .ok e → cs.all (·.holds e) = false) :
    selected = [] := by
  induction found generalizing selected with
  | nil =>
    cases h
    rfl
  | cons r found ih =>
    cases r with
    | error corruption => cases h
    | ok r =>
      obtain ⟨e, he, h⟩ := bind_eq_ok_iff.1 h
      obtain ⟨others, hothers, h⟩ := bind_eq_ok_iff.1 h
      have hothers := ih hothers fun r e hr => hnone r e (List.mem_cons_of_mem _ hr)
      rw [hnone r e List.mem_cons_self he] at h
      cases h
      exact hothers

/-- Where no record satisfies the dependencies none is selected. -/
theorem MatchesNothing.select_eq_nil {ds : List Dependency} (h : t.MatchesNothing files ds)
    {text : String} (htext : files.readText t.path = .ok text) {selected : List Selected}
    (hselect : t.select text (.dependencies ds) = .ok selected) : selected = [] := by
  obtain ⟨header, hheader, hselect⟩ := bind_eq_ok_iff.1 hselect
  obtain ⟨cs, hcs, hselect⟩ := bind_eq_ok_iff.1 hselect
  have hwhere := mapError_eq_ok_iff.1 hselect
  exact selectWhere_eq_nil hwhere fun r e =>
    h text header cs r e htext (mapError_eq_ok_iff.1 hheader) hcs

theorem remove_nothing {ds : List Dependency} (h : t.MatchesNothing files ds) :
    AllOrNothing files (fun _ files' => files' = files) (t.remove (.dependencies ds) files) := by
  refine .bind (.ask _ _) fun text htext => ?_
  refine .bind (.ofExcept _) fun selected hselected => ?_
  rw [h.select_eq_nil htext hselected]
  exact rfl

theorem set_nothing {ds : List Dependency} (h : t.MatchesNothing files ds) (elapsed : UInt64)
    (values : List Literal) :
    AllOrNothing files (fun _ files' => files' = files)
      (t.set elapsed (.dependencies ds) values files) := by
  refine .bind (.ofExcept _) fun replacements _ => ?_
  refine .bind (.ask _ _) fun text htext => ?_
  refine .bind (.ofExcept _) fun selected hselected => ?_
  rw [h.select_eq_nil htext hselected]
  exact rfl

/-- A query that only reads leaves the handle and the files as they are. -/
theorem query_onlyReads {q : Query} (h : t.OnlyReads files q) (c : Circumstances) :
    AllOrNothing files (fun result files' => result.2 = t ∧ files' = files)
      (t.query c q files) := by
  rw [query]
  split
  · exact (AllOrNothing.ofExcept _).mono fun _ _ h => by cases h.2
  · cases q with
    | add table values => cases h
    | get table target => exact .map _ (get_effect c.elapsed target) fun _ _ h => ⟨rfl, h⟩
    | remove table target =>
      cases target with
      | entry id => cases h
      | dependencies ds => exact .map _ (remove_nothing h) fun _ _ h => ⟨rfl, h⟩
    | set table target values =>
      cases target with
      | entry id => cases h
      | dependencies ds => exact .map _ (set_nothing h c.elapsed values) fun _ _ h => ⟨rfl, h⟩
    | drop table => cases h

/-! ## What an effect leaves alone -/

namespace Effect

variable {t' : Table} {files' : FileTree} {path : String} {place : Place}

theorem handle (h : Effect t files t' files') : t' = t ∨ t' = { t with dropped := true } := by
  cases h with
  | nothing => exact .inl rfl
  | written => exact .inl rfl
  | replaced => exact .inl rfl
  | deleted => exact .inr rfl
  | missing => exact .inr rfl

/-- The name, the schema and the path stay those of the table. -/
theorem same (h : Effect t files t' files') :
    t'.name = t.name ∧ t'.schema = t.schema ∧ t'.path = t.path := by
  rcases h.handle with rfl | rfl <;> exact ⟨rfl, rfl, rfl⟩

/-- Only the table file and the temporary file beside it are touched. -/
theorem find?_of_ne (h : Effect t files t' files') (hown : ¬files.LeadsTo t.path place)
    (htemporary : ¬files.LeadsTo t.temporaryPath place) :
    files'.find? place = files.find? place := by
  cases h with
  | nothing => rfl
  | written own old new leads found =>
    have hne : place ≠ own := fun heq => hown (heq ▸ leads)
    rw [FileTree.find?_put_of_ne _ _ hne]
  | replaced own temporary old new leads found beside =>
    have hne : place ≠ own := fun heq => hown (heq ▸ leads)
    have hne' : place ≠ temporary := fun heq => htemporary (heq ▸ beside)
    rw [FileTree.find?_put_of_ne _ _ hne, FileTree.find?_erase_of_ne _ hne',
      FileTree.find?_put_of_ne _ _ hne']
  | deleted own old leads found =>
    have hne : place ≠ own := fun heq => hown (heq ▸ leads)
    rw [FileTree.find?_erase_of_ne _ hne]
  | missing gone => rfl

theorem keepsFolders (h : Effect t files t' files') : files.KeepsFolders files' := by
  refine ⟨by cases h <;> rfl, ?_⟩
  intro p hp
  rw [h.find?_of_ne (fun hown => hown.notFolder hp) fun htemporary => htemporary.notFolder hp, hp]

/-- What stands in the tree afterwards was there before, or it is the file of the table, which was
there with another content. Nothing is left of the temporary file. -/
theorem found (h : Effect t files t' files') {n : Node} (hfind : files'.find? place = some n) :
    files.find? place = some n ∨
      (∃ content, n = .file content) ∧ files.HasFile t.path place := by
  cases h with
  | nothing => exact .inl hfind
  | written own old new leads found =>
    by_cases hown : place = own
    · subst hown
      rw [FileTree.find?_put_self _ _ leads.ne_nil] at hfind
      exact .inr ⟨⟨new, (Option.some.inj hfind).symm⟩, leads, old, found⟩
    · rw [FileTree.find?_put_of_ne _ _ hown] at hfind
      exact .inl hfind
  | replaced own temporary old new leads found beside =>
    by_cases hown : place = own
    · subst hown
      rw [FileTree.find?_put_self _ _ leads.ne_nil] at hfind
      exact .inr ⟨⟨new, (Option.some.inj hfind).symm⟩, leads, old, found⟩
    rw [FileTree.find?_put_of_ne _ _ hown] at hfind
    by_cases htemporary : place = temporary
    · rw [htemporary, FileTree.find?_erase_self _ beside.ne_nil] at hfind
      cases hfind
    · rw [FileTree.find?_erase_of_ne _ htemporary, FileTree.find?_put_of_ne _ _ htemporary] at hfind
      exact .inl hfind
  | deleted own old leads found =>
    by_cases hown : place = own
    · rw [hown, FileTree.find?_erase_self _ leads.ne_nil] at hfind
      cases hfind
    · rw [FileTree.find?_erase_of_ne _ hown] at hfind
      exact .inl hfind
  | missing gone => exact .inl hfind

/-- There is no node where there was none. -/
theorem exists_before (h : Effect t files t' files') {n : Node}
    (hfind : files'.find? place = some n) : ∃ m, files.find? place = some m := by
  obtain hbefore | ⟨-, -, content, hfile⟩ := h.found hfind
  · exact ⟨n, hbefore⟩
  · exact ⟨_, hfile⟩

/-- Every path still leads where it led. -/
theorem leadsTo (h : Effect t files t' files') (hplace : files.LeadsTo path place) :
    files'.LeadsTo path place := by
  refine hplace.of_keepsFolders h.keepsFolders ?_
  intro hfolder
  obtain hbefore | ⟨⟨content, hfile⟩, -⟩ := h.found hfolder
  · exact hplace.notFolder hbefore
  · cases hfile

theorem isTree (h : Effect t files t' files') (htree : files.IsTree) : files'.IsTree := by
  obtain ⟨hhere, hfolders⟩ := h.keepsFolders
  refine ⟨?_, ?_, ?_⟩
  · rw [hhere]
    exact hfolders _ htree.here_folder
  · intro p n hp
    obtain ⟨m, hm⟩ := h.exists_before hp
    exact hfolders _ (htree.parent_folder p m hm)
  · intro p n hp
    obtain ⟨m, hm⟩ := h.exists_before hp
    exact htree.short p m hm

/-- A table that was not dropped still has its file. -/
theorem exists_file (h : Effect t files t' files') (hlive : t'.dropped = false)
    (hplace : files.LeadsTo t.path place) {content : ByteArray}
    (hfile : files.find? place = some (.file content)) :
    ∃ content, files'.find? place = some (.file content) := by
  cases h with
  | nothing => exact ⟨content, hfile⟩
  | written own old new leads found =>
    rw [hplace.unique leads]
    exact ⟨new, FileTree.find?_put_self _ _ leads.ne_nil⟩
  | replaced own temporary old new leads found beside =>
    rw [hplace.unique leads]
    exact ⟨new, FileTree.find?_put_self _ _ leads.ne_nil⟩
  | deleted own old leads found => cases hlive
  | missing gone => cases hlive

/-- A table that was dropped just now has its file no more. -/
theorem find?_of_dropped (h : Effect t files t' files') (hlive : t.dropped = false)
    (hdropped : t'.dropped = true) (hplace : files.HasFile t.path place) :
    files'.find? place = none := by
  cases h with
  | deleted own old leads found =>
    rw [hplace.1.unique leads, FileTree.find?_erase_self _ leads.ne_nil]
  | missing gone =>
    rw [hplace.remove] at gone
    cases gone
  | nothing | written | replaced =>
    rw [hlive] at hdropped
    cases hdropped

end Effect

/-! ## New tables -/

/-- What making a table has done: folders were made, and a file with the header where there was
nothing. -/
structure Created (config : StoreConfig) (name : String) (schema : Schema) (files : FileTree)
    (t : Table) (files' : FileTree) : Prop where
  name_valid : Name.check name = .ok ()
  schema_valid : schema.check = .ok ()
  handle : t = { name, schema, path := config.tablePath name }
  file : ∃ middle place ending, FileTree.Grows config.dataDir files middle ∧
    middle.locate t.path = .ok (place, ending) ∧ ending ≠ .slash ∧
    middle.lookUp place = .ok none ∧
    files' = middle.put place (.file (Header.encode name schema).toUTF8)

/-- Making a table that fails has made folders at most. -/
theorem create_effect (config : StoreConfig) (name : String) (schema : Schema)
    (files : FileTree) :
    match create config name schema files with
    | .ok t files' => Created config name schema files t files'
    | .error _ files' => FileTree.Grows config.dataDir files files' := by
  have hmade := FileTree.grows_makeFolders config.dataDir files
  simp only [create, Bind.bind, EStateM.bind]
  cases hname : Name.check name with
  | error fault => exact .refl _ _
  | ok =>
    cases hschema : schema.check with
    | error fault => exact .refl _ _
    | ok =>
      simp only [Except.mapError, Disk.ofExcept, Disk.makeFolders, EStateM.adaptExcept]
      cases hfolders : FileTree.makeFolders config.dataDir files with
      | error fault middle =>
        rw [hfolders] at hmade
        exact hmade
      | ok _ middle =>
        rw [hfolders] at hmade
        simp only [Disk.change]
        cases hcreate : middle.create (config.tablePath name)
            (Header.encode name schema).toUTF8 with
        | error fault => exact hmade
        | ok files' =>
          obtain ⟨place, ending, hlocate, hending, hlookUp, rfl⟩ :=
            FileTree.create_eq_ok_iff.1 hcreate
          exact ⟨hname, hschema, rfl, middle, place, ending, hmade, hlocate, hending, hlookUp, rfl⟩

namespace Created

variable {config : StoreConfig} {name : String} {schema : Schema} {files' : FileTree}
  {place : Place}

/-- Every node is still there. -/
theorem kept (h : Created config name schema files t files') {n : Node}
    (hfind : files.find? place = some n) : files'.find? place = some n := by
  obtain ⟨middle, new, ending, hgrows, -, -, hlookUp, rfl⟩ := h.file
  obtain ⟨-, hnone⟩ := FileTree.lookUp_eq_ok_iff.1 hlookUp
  have hmiddle := hgrows.madeFolders.kept place n hfind
  have hne : place ≠ new := by
    rintro rfl
    rw [hnone] at hmiddle
    cases hmiddle
  rw [FileTree.find?_put_of_ne _ _ hne, hmiddle]

theorem keepsFolders (h : Created config name schema files t files') :
    files.KeepsFolders files' := by
  refine ⟨?_, fun p hp => h.kept hp⟩
  obtain ⟨middle, new, ending, hgrows, -, -, -, rfl⟩ := h.file
  exact hgrows.madeFolders.here

/-- The header stands in a file where there was nothing, and the path of the table leads to it, if
its dots lead to folders. Everything else that is new is a folder, where the folder of the tables
was missing. -/
theorem exists_place (h : Created config name schema files t files')
    (hdots : ∀ u p, FileTree.Grows config.dataDir files u → u.locate t.path = .ok (p, .dots) →
      u.find? p ≠ none) :
    ∃ place, files.find? place = none ∧ files'.LeadsTo t.path place ∧
      files'.find? place = some (.file (Header.encode name schema).toUTF8) ∧
      ∀ p n, files.find? p = none → files'.find? p = some n → p ≠ place →
        n = .folder ∧ files.isFolder config.dataDir = false := by
  obtain ⟨middle, place, ending, hgrows, hlocate, hending, hlookUp, rfl⟩ := h.file
  obtain ⟨hshort, hnone⟩ := FileTree.lookUp_eq_ok_iff.1 hlookUp
  have hne : place ≠ [] := by
    rintro rfl
    cases hnone
  have hfile := FileTree.find?_put_self middle
    (.file (Header.encode name schema).toUTF8) hne
  have hkeeps : middle.KeepsFolders (middle.put place (.file (Header.encode name schema).toUTF8)) :=
    FileTree.keepsFolders_put (by simp [hnone]) _
  have hname : ending = .name := by
    cases ending with
    | name => rfl
    | slash => exact absurd rfl hending
    | dots => exact absurd hnone (hdots middle place hgrows hlocate)
  subst hname
  refine ⟨place, ?_, ⟨FileTree.locate_of_keepsFolders hkeeps hlocate, hshort, ?_⟩, hfile, ?_⟩
  · cases hfind : files.find? place with
    | none => rfl
    | some n =>
      have hmiddle := hgrows.madeFolders.kept place n hfind
      rw [hnone] at hmiddle
      cases hmiddle
  · rw [hfile]
    simp
  · intro p n hfree hp hother
    rw [FileTree.find?_put_of_ne _ _ hother] at hp
    refine ⟨(hgrows.madeFolders.made p n hp hfree).1, ?_⟩
    by_contra hfolder
    rw [hgrows.idle (Bool.eq_true_of_not_eq_false hfolder), hfree] at hp
    cases hp

theorem find?_ne_none_of_isTree (htree : files.IsTree) {path : String} {p : Place} {u : FileTree}
    (hgrows : FileTree.Grows config.dataDir files u) (hlocate : u.locate path = .ok (p, .dots)) :
    u.find? p ≠ none := by
  have hfolder := ((htree.grows hgrows).locate hlocate).2 rfl
  rw [hfolder]
  exact Option.some_ne_none _

theorem isTree (h : Created config name schema files t files') (htree : files.IsTree) :
    files'.IsTree := by
  obtain ⟨middle, place, ending, hgrows, hlocate, -, hlookUp, rfl⟩ := h.file
  obtain ⟨hshort, hnone⟩ := FileTree.lookUp_eq_ok_iff.1 hlookUp
  have hmiddle := htree.grows hgrows
  exact hmiddle.put (hmiddle.locate hlocate).1 hshort (by simp [hnone]) _

end Created

end Table

end RecordStore

import RecordStore.Proofs.Store.Placement
import RecordStore.Proofs.Store.Separation
import RecordStore.Proofs.Table.Contents

/-!
# Opening a folder again

A database that starts in an empty folder, and makes only tables whose names have no slash, can be
opened again from the folder alone: every table that was not dropped has its file there, the file
holds its entries, and nothing else is there.

- `Mirrors`: the folder and the registered tables agree;
- `Mirrors.created`, `Mirrors.answered`, `mirrors_perform`: they do so again after a command;
- `Command.track`, `Store.standing`, `Lists`: the tables that were made and not dropped, going by
  the answers alone;
- `mirrors_after`: after several commands the folder mirrors the tables, and the answers list them;
- `Mirrors.openDatabase`, `Mirrors.get`: what is found, and what it answers;
- `openDatabase_after`: whatever was done, nothing is lost.
-/

namespace RecordStore

/-! ## Tables in the folder -/

/-- An extension without dots other than that of temporary files cannot be mixed up with it. -/
theorem StoreConfig.IsPlain.not_mixesTemporary {config : StoreConfig} (h : config.IsPlain)
    (htmp : config.extension ≠ "tmp") : ¬config.MixesTemporary := by
  intro hends
  have hne : '.' :: config.extension.toList ≠ '.' :: "tmp".toList := by
    intro heq
    exact htmp (String.toList_inj.1 (List.cons.inj heq).2)
  have htail : '.' :: "tmp".toList <:+ '.' :: config.extension.toList ++ ".tmp".toList :=
    List.suffix_append _ _
  rcases List.suffix_or_suffix_of_suffix hends htail with hshort | hlong
  · rcases List.suffix_cons_iff.1 hshort with heq | hdot
    · exact hne heq
    · exact absurd (hdot.subset List.mem_cons_self) (by decide)
  · rcases List.suffix_cons_iff.1 hlong with heq | hdot
    · exact hne heq.symm
    · exact h.no_dot (hdot.subset List.mem_cons_self)

/-- A table whose file is directly in the folder of the tables. -/
structure Table.IsPlaced (config : StoreConfig) (t : Table) : Prop extends t.IsMade where
  slash : '/' ∉ t.name.toList
  path : t.path = config.tablePath t.name

theorem Table.IsPlaced.of_same {config : StoreConfig} {t t' : Table} (h : t.IsPlaced config)
    (hname : t'.name = t.name) (hschema : t'.schema = t.schema) (hpath : t'.path = t.path) :
    t'.IsPlaced config := by
  refine ⟨⟨?_, ?_⟩, ?_, ?_⟩
  · rw [hname]
    exact h.name_valid
  · rw [hschema]
    exact h.schema_valid
  · rw [hname]
    exact h.slash
  · rw [hpath, hname]
    exact h.path

/-- The tables that were not dropped, and only they, have files in the folder. -/
structure Mirrors (config : StoreConfig) (folder : Place) (s : Store) : Prop where
  same_config : s.database.config = config
  sorted : s.database.IsSorted
  opens : s.files.HasFolder config.dataDir folder
  placed : ∀ t ∈ s.database.tables, t.IsPlaced config
  holds : ∀ t ∈ s.database.tables, t.dropped = false →
    ∃ rows, t.Holds s.files (folder ++ [config.fileName t.name]) rows
  only : ∀ name n, s.files.find? (folder ++ [name]) = some n →
    ∃ t ∈ s.database.tables, t.dropped = false ∧ config.fileName t.name = name

namespace Mirrors

variable {config : StoreConfig} {folder : Place} {s : Store}

/-- In an empty folder there are no tables. -/
theorem empty {files : FileTree} (h : files.HasFolder config.dataDir folder)
    (hempty : ∀ name, files.find? (folder ++ [name]) = none) :
    Mirrors config folder ⟨{ config }, files⟩ := by
  refine ⟨rfl, List.Pairwise.nil, h, List.forall_mem_nil _, List.forall_mem_nil _, ?_⟩
  intro name n hfind
  rw [hempty name] at hfind
  cases hfind

/-! ## One command -/

/-- A new table has its file in the folder, and nothing else is new there. -/
theorem created (h : Mirrors config folder s) (hplain : config.IsPlain) {name : String}
    (hslash : '/' ∉ name.toList) {schema : Schema} {t : Table} {files : FileTree}
    (hfree : s.database.find? name = none)
    (hcreated : t.Created s.database.config name schema s.files files) :
    Mirrors config folder ⟨s.database.insert t, files⟩ := by
  rw [h.same_config] at hcreated
  have hname : t.name = name := by rw [hcreated.handle]
  have hpath : t.path = config.tablePath name := by rw [hcreated.handle]
  have hfolder := h.opens.of_keepsFolders hcreated.keepsFolders
  obtain ⟨_, henter, -, hleads, hheader, hothers⟩ := hcreated.exists_folder hplain hslash
  cases hfolder.enter.symm.trans henter
  rw [← hpath] at hleads
  refine ⟨h.same_config, h.sorted.insert (hname ▸ hfree), hfolder, ?_, ?_, ?_⟩
  · intro u hu
    rcases Database.mem_insert.1 hu with rfl | hu
    · rw [hcreated.handle]
      exact ⟨⟨hcreated.name_valid, hcreated.schema_valid⟩, hslash, rfl⟩
    · exact h.placed u hu
  · intro u hu hlive
    rcases Database.mem_insert.1 hu with rfl | hu
    · rw [hname]
      exact ⟨[], hcreated.holds hleads hheader⟩
    · obtain ⟨rows, hrows⟩ := h.holds u hu hlive
      have hkept := hcreated.kept hrows.found
      exact ⟨rows, hrows.of_kept hcreated.keepsFolders (hkept.trans hrows.found.symm)⟩
  · intro other n hfind
    cases hbefore : s.files.find? (folder ++ [other]) with
    | some m =>
      obtain ⟨u, hu, hlive, hother⟩ := h.only other m hbefore
      exact ⟨u, Database.mem_insert.2 (.inr hu), hlive, hother⟩
    | none =>
      refine ⟨t, Database.mem_insert.2 (.inl rfl), by rw [hcreated.handle], ?_⟩
      by_contra hne
      have hne' : folder ++ [other] ≠ folder ++ [config.fileName name] := by
        intro heq
        rw [hname] at hne
        exact hne (List.singleton_inj.1 (List.append_cancel_left heq)).symm
      have hmissing := (hothers _ n hbefore hfind hne').2
      rw [h.opens.isFolder] at hmissing
      cases hmissing

/-- A query on one table leaves the files of all others as they are. -/
theorem find?_of_effect (h : Mirrors config folder s) (hmixes : ¬config.MixesTemporary)
    {t t' u : Table} (ht : t ∈ s.database.tables) (hlive : t.dropped = false) {files : FileTree}
    (heffect : t.Effect s.files t' files) (hu : u ∈ s.database.tables)
    (hulive : u.dropped = false) (hne : u.name ≠ t.name) :
    files.find? (folder ++ [config.fileName u.name]) =
      s.files.find? (folder ++ [config.fileName u.name]) := by
  obtain ⟨_, hrows⟩ := h.holds t ht hlive
  obtain ⟨_, hrows'⟩ := h.holds u hu hulive
  refine heffect.find?_of_other hmixes (h.placed t ht).path hrows.leads (h.placed u hu).path
    hrows'.leads ?_
  intro heq
  have hnames := List.singleton_inj.1 (List.append_cancel_left heq)
  exact hne (StoreConfig.fileName_inj hnames).symm

/-- After a query that succeeds the folder has the files of the tables that are left. -/
theorem answered (h : Mirrors config folder s) (hmixes : ¬config.MixesTemporary)
    {c : Circumstances} (hid : IsRecordId c.newId) {q : Query} {t t' : Table} {answer : EntrySet}
    {files : FileTree} (ht : t ∈ s.database.tables)
    (hrun : t.query c q s.files = .ok (answer, t') files) :
    Mirrors config folder ⟨s.database.replace t', files⟩ := by
  have hlive := Table.dropped_of_query hrun
  have heffect := Table.query_effect t s.files c q
  rw [hrun] at heffect
  obtain ⟨hname, hschema, hpath⟩ := heffect.same
  obtain ⟨rows, hrows⟩ := h.holds t ht hlive
  refine ⟨h.same_config, h.sorted.replace t', h.opens.of_keepsFolders heffect.keepsFolders,
    ?_, ?_, ?_⟩
  · intro u hu
    rcases Database.mem_replace.1 hu with ⟨rfl, -⟩ | ⟨hu, -⟩
    · exact (h.placed t ht).of_same hname hschema hpath
    · exact h.placed u hu
  · intro u hu hulive
    rcases Database.mem_replace.1 hu with ⟨rfl, -⟩ | ⟨hu, hne⟩
    · rw [hname]
      exact hrows.query (h.placed t ht).toIsMade hid hrun hulive
    · obtain ⟨rows', hrows'⟩ := h.holds u hu hulive
      have hkept := h.find?_of_effect hmixes ht hlive heffect hu hulive (hname ▸ hne)
      exact ⟨rows', hrows'.of_kept heffect.keepsFolders hkept⟩
  · intro name n hfind
    obtain ⟨m, hbefore⟩ := heffect.exists_before hfind
    obtain ⟨u, hu, hulive, rfl⟩ := h.only name m hbefore
    by_cases hne : u.name = t'.name
    · -- this is the table of the query, which cannot have been dropped if its file is there
      have hmem : t' ∈ (s.database.replace t').tables :=
        Database.mem_replace.2 (.inl ⟨rfl, u, hu, hne⟩)
      refine ⟨t', hmem, ?_, by rw [hne]⟩
      by_contra hdropped
      rw [Bool.not_eq_false] at hdropped
      have hgone := heffect.find?_of_dropped hlive hdropped hrows.hasFile
      rw [hne, hname, hgone] at hfind
      cases hfind
    · exact ⟨u, Database.mem_replace.2 (.inr ⟨hu, hne⟩), hulive, rfl⟩

end Mirrors

/-- The name of a table has no slash, and a new entry gets an id that is found again. -/
def Command.IsPlain : Command → Prop
  | .create name _ => '/' ∉ name.toList
  | .query c _ => IsRecordId c.newId

/-- One command keeps the folder and the registered tables alike. -/
theorem mirrors_perform {config : StoreConfig} (hplain : config.IsPlain)
    (hmixes : ¬config.MixesTemporary) {folder : Place} {s : Store} (h : Mirrors config folder s)
    {x : Command} (hx : x.IsPlain) : Mirrors config folder (s.perform x).2 := by
  have hstep := s.step_perform x
  generalize s.perform x = result at hstep ⊢
  cases hstep with
  | created name schema t files free made => exact h.created hplain hx free made
  | refused name schema e files grows =>
    -- the folder is there already, so nothing was made
    rw [h.same_config] at grows
    rw [grows.idle h.opens.isFolder]
    exact h
  | answered c q t t' answer files found ran =>
    exact h.answered hmixes hx (h.sorted.find?_eq_some_iff.1 found).1 ran
  | failed c q e => exact h

/-! ## The tables that were made -/

/-- The tables that were made and not dropped, after one more command and its answer. -/
def Command.track (tables : List (String × Schema)) :
    Command × Except QueryError EntrySet → List (String × Schema)
  | (_, .error _) => tables
  | (.create name schema, .ok _) => (name, schema) :: tables
  | (.query _ (.drop name), .ok _) => tables.filter (·.1 ≠ name)
  | (.query _ _, .ok _) => tables

/-- The tables that were made and not dropped by several commands, going by the answers alone. -/
def Store.standing (s : Store) (commands : List Command) : List (String × Schema) :=
  (commands.zip (runSteps Store.perform s commands).1).foldl Command.track []

/-- These are the names and the schemas of the tables that were not dropped. -/
def Lists (tables : List (String × Schema)) (s : Store) : Prop :=
  ∀ name schema, (name, schema) ∈ tables ↔
    ∃ t ∈ s.database.tables, t.dropped = false ∧ t.name = name ∧ t.schema = schema

/-- The answers to one more command tell which tables there are afterwards. -/
theorem Lists.perform {tables : List (String × Schema)} {s : Store} (h : Lists tables s)
    (hsorted : s.database.IsSorted) (x : Command) :
    Lists (Command.track tables (x, (s.perform x).1)) (s.perform x).2 := by
  have hstep := s.step_perform x
  generalize s.perform x = result at hstep ⊢
  cases hstep with
  | refused name schema e files grows => exact h
  | failed c q e => exact h
  | created name schema t files free made =>
    intro name' schema'
    show (name', schema') ∈ (name, schema) :: tables ↔ ∃ u ∈ (s.database.insert t).tables, _
    rw [List.mem_cons, h]
    constructor
    · rintro (heq | ⟨u, hu, hlive⟩)
      · cases heq
        exact ⟨t, Database.mem_insert.2 (.inl rfl), by rw [made.handle]; exact ⟨rfl, rfl, rfl⟩⟩
      · exact ⟨u, Database.mem_insert.2 (.inr hu), hlive⟩
    · rintro ⟨u, hu, hlive, rfl, rfl⟩
      rcases Database.mem_insert.1 hu with rfl | hu
      · rw [made.handle]
        exact .inl rfl
      · exact .inr ⟨u, hu, hlive, rfl, rfl⟩
  | answered c q t t' answer files found ran =>
    obtain ⟨⟨name, rfl⟩, rfl⟩ | ⟨hkeeps, rfl⟩ := Table.handle_of_query ran
    · have hname : t.name = name := Database.name_of_find? found
      intro name' schema'
      show (name', schema') ∈ tables.filter (·.1 ≠ name) ↔
        ∃ u ∈ (s.database.replace { t with dropped := true }).tables, _
      rw [List.mem_filter, h, decide_eq_true_iff]
      constructor
      · rintro ⟨⟨u, hu, hlive, rfl, rfl⟩, hne⟩
        exact ⟨u, Database.mem_replace.2 (.inr ⟨hu, hname ▸ hne⟩), hlive, rfl, rfl⟩
      · rintro ⟨u, hu, hlive, rfl, rfl⟩
        rcases Database.mem_replace.1 hu with ⟨rfl, -⟩ | ⟨hu, hne⟩
        · cases hlive
        · exact ⟨⟨u, hu, hlive, rfl, rfl⟩, hname ▸ hne⟩
    · have htrack : Command.track tables (.query c q, .ok answer) = tables := by
        cases q with
        | drop name => exact absurd rfl (hkeeps name)
        | add | get | remove | set => rfl
      rw [htrack, hsorted.replace_self (hsorted.find?_eq_some_iff.1 found).1]
      exact h

/-- Whatever commands are carried out, the folder mirrors the registered tables, and the answers
tell which tables these are. -/
theorem mirrors_after {config : StoreConfig} (hplain : config.IsPlain)
    (hmixes : ¬config.MixesTemporary) {folder : Place} {s : Store} (h : Mirrors config folder s)
    {tables : List (String × Schema)} (hlists : Lists tables s) {commands : List Command}
    (hcommands : ∀ x ∈ commands, x.IsPlain) :
    Mirrors config folder (s.after commands) ∧
      Lists ((commands.zip (runSteps Store.perform s commands).1).foldl Command.track tables)
        (s.after commands) := by
  induction commands generalizing s tables with
  | nil => exact ⟨h, hlists⟩
  | cons x commands ih =>
    obtain ⟨hx, hcommands⟩ := List.forall_mem_cons.1 hcommands
    exact ih (mirrors_perform hplain hmixes h hx) (hlists.perform h.sorted x) hcommands

/-! ## Opening the folder again -/

/-- The database with the tables that were not dropped. -/
def Database.live (db : Database) : Database :=
  { db with tables := db.tables.filter (!·.dropped) }

theorem Database.mem_live {db : Database} {t : Table} :
    t ∈ db.live.tables ↔ t ∈ db.tables ∧ t.dropped = false := by
  rw [live, List.mem_filter, Bool.not_eq_true']

namespace Mirrors

variable {config : StoreConfig} {folder : Place} {s : Store} {t : Table}

/-- Without the dropped tables, the database still fits the folder. -/
theorem live (h : Mirrors config folder s) : Mirrors config folder ⟨s.database.live, s.files⟩ := by
  refine ⟨h.same_config, h.sorted.filter _, h.opens, ?_, ?_, ?_⟩
  · intro t ht
    exact h.placed t (Database.mem_live.1 ht).1
  · intro t ht
    exact h.holds t (Database.mem_live.1 ht).1
  · intro name n hfind
    obtain ⟨t, ht, hlive, hname⟩ := h.only name n hfind
    exact ⟨t, Database.mem_live.2 ⟨ht, hlive⟩, hlive, hname⟩

/-- From the file of a table its very handle is loaded. -/
theorem loaded?_eq (h : Mirrors config folder s) (ht : t ∈ s.database.tables)
    (hlive : t.dropped = false) : Store.loaded? s.files (config.tablePath t.name) = some t := by
  obtain ⟨rows, hrows⟩ := h.holds t ht hlive
  obtain ⟨⟨hname, hschema⟩, -, hpath⟩ := h.placed t ht
  have hloaded := Store.loaded?_of_header hname hschema hrows.readText
  rw [← hpath, hloaded, ← hlive]

/-- The files of the folder declare the tables that were not dropped. -/
theorem declared_iff (h : Mirrors config folder s) (hplain : config.IsPlain) :
    Store.Declared config s.files folder t ↔ t ∈ s.database.live.tables := by
  rw [Database.mem_live]
  constructor
  · rintro ⟨name, hname, -, hloaded⟩
    obtain ⟨n, hfind⟩ := Option.isSome_iff_exists.1 hname
    obtain ⟨u, hu, hlive, rfl⟩ := h.only name n hfind
    have hsame : some u = some t := (h.loaded?_eq hu hlive).symm.trans hloaded
    cases hsame
    exact ⟨hu, hlive⟩
  · rintro ⟨ht, hlive⟩
    obtain ⟨rows, hrows⟩ := h.holds t ht hlive
    obtain ⟨⟨hname, -⟩, hslash, hpath⟩ := h.placed t ht
    have hfile := hrows.hasFile
    rw [hpath] at hfile
    exact ⟨config.fileName t.name, by rw [hrows.found]; rfl,
      StoreConfig.isTableFile_tablePath hplain (Name.ne_empty_of_check hname) hslash hfile,
      h.loaded?_eq ht hlive⟩

/-- Opening the folder registers the tables that were not dropped, and leaves the files alone. -/
theorem openDatabase (h : Mirrors config folder s) (hplain : config.IsPlain) :
    Store.openDatabase config s.files = .ok s.database.live s.files := by
  obtain ⟨db, hopen, hopened⟩ := Store.exists_opened h.opens
  have hsame : db = s.database.live := by
    refine hopened.sorted.eq_of_mem_iff h.live.sorted
      (hopened.same_config.trans h.same_config.symm) fun t => ?_
    constructor
    · intro ht
      exact (h.declared_iff hplain).1 (hopened.declared t ht)
    · intro ht
      obtain ⟨u, hu, hname⟩ := hopened.found t ((h.declared_iff hplain).2 ht)
      have hu' := (h.declared_iff hplain).1 (hopened.declared u hu)
      rwa [← h.live.sorted.eq_of_name_eq hu' ht hname]
  rw [hopen, hsame]

/-- Asking for all entries of a table answers those that its file holds. -/
theorem get (h : Mirrors config folder s) (ht : t ∈ s.database.tables) (hlive : t.dropped = false)
    {place : Place} {rows : List Entry} (hrows : t.Holds s.files place rows) (c : Circumstances) :
    Store.queryOne c (.get t.name (.dependencies [])) s =
      .ok (rows.map (Entry.timed c.elapsed)) s := by
  have hfind : s.database.find? t.name = some t := h.sorted.find?_eq_some_iff.2 ⟨ht, rfl⟩
  have hget := hrows.get (h.placed t ht).toIsMade hlive c t.name
  simp only [Store.queryOne, Query.table, hfind, Disk.inStore, hget, h.sorted.replace_self ht]

end Mirrors

/-- Whatever tables are made in an empty folder, and whatever is asked of them, with success or
without: opening the folder registers the tables that were made and not dropped, with their names
and schemas, and each of them has the entries that it had before, in the same order. -/
theorem openDatabase_after {config : StoreConfig} (hplain : config.IsPlain)
    (htmp : config.extension ≠ "tmp") {files : FileTree}
    (hempty : files.list config.dataDir = .ok []) {commands : List Command}
    (hcommands : ∀ x ∈ commands, x.IsPlain) :
    let s := Store.after ⟨{ config }, files⟩ commands
    ∃ db, Store.openDatabase config s.files = .ok db s.files ∧
      (∀ t, t ∈ db.tables ↔ t ∈ s.database.tables ∧ t.dropped = false) ∧
      (∀ name schema, (name, schema) ∈ Store.standing ⟨{ config }, files⟩ commands ↔
        ∃ t ∈ db.tables, t.name = name ∧ t.schema = schema) ∧
      ∀ t ∈ db.tables, ∃ rows : List Entry, ∀ c,
        Store.queryOne c (.get t.name (.dependencies [])) s =
            .ok (rows.map (Entry.timed c.elapsed)) s ∧
          Store.queryOne c (.get t.name (.dependencies [])) ⟨db, s.files⟩ =
            .ok (rows.map (Entry.timed c.elapsed)) ⟨db, s.files⟩ := by
  intro s
  obtain ⟨folder, hfolder, hnames⟩ := FileTree.list_eq_ok_iff.1 hempty
  have hnone : ∀ name, files.find? (folder ++ [name]) = none := by
    intro name
    rw [Option.eq_none_iff_forall_ne_some]
    intro n hfind
    have hmem := FileTree.mem_filterMap_nameBelow?_iff.2 ⟨n, hfind⟩
    rw [← hnames] at hmem
    cases hmem
  have hlists : Lists [] ⟨{ config }, files⟩ := by
    intro name schema
    constructor
    · intro hmem
      cases hmem
    · rintro ⟨t, ht, -⟩
      cases ht
  obtain ⟨h, hstanding⟩ := mirrors_after hplain (hplain.not_mixesTemporary htmp)
    (.empty hfolder hnone) hlists hcommands
  refine ⟨s.database.live, h.openDatabase hplain, fun t => Database.mem_live, ?_, ?_⟩
  · intro name schema
    rw [Store.standing, hstanding]
    constructor
    · rintro ⟨t, ht, hlive, hsame⟩
      exact ⟨t, Database.mem_live.2 ⟨ht, hlive⟩, hsame⟩
    · rintro ⟨t, ht, hsame⟩
      obtain ⟨ht, hlive⟩ := Database.mem_live.1 ht
      exact ⟨t, ht, hlive, hsame⟩
  · intro t ht
    obtain ⟨ht', hlive⟩ := Database.mem_live.1 ht
    obtain ⟨rows, hrows⟩ := h.holds t ht' hlive
    exact ⟨rows, fun c => ⟨h.get ht' hlive hrows c, h.live.get ht hlive hrows c⟩⟩

/-- Two tables, one with an entry, of which the other is dropped. -/
theorem openDatabase_after_drop :
    let commands : List Command :=
      [.create "T" ⟨[⟨"v", .integer⟩]⟩, .create "U" ⟨[⟨"v", .integer⟩]⟩,
        .query ⟨EntryId.ofWord 5, 0⟩ (.add "T" [.bare "1"]),
        .query ⟨EntryId.ofWord 6, 0⟩ (.drop "U")]
    let s := Store.after ⟨{ config := { dataDir := "d" } }, ⟨[(["d"], .folder)], []⟩⟩ commands
    ∃ db, Store.openDatabase { dataDir := "d" } s.files = .ok db s.files ∧
      (∀ t ∈ db.tables, t.name = "T") ∧ ∃ t ∈ db.tables, t.schema = ⟨[⟨"v", .integer⟩]⟩ ∧
        Store.queryOne ⟨"", 0⟩ (.get t.name (.dependencies [])) ⟨db, s.files⟩ =
          .ok [{ id := EntryId.ofWord 5, data := [("v", .int 1)], queryTime := some 0 }]
            ⟨db, s.files⟩ := by
  intro commands s
  have hplain : StoreConfig.IsPlain { dataDir := "d" } := ⟨by decide, by decide, by decide⟩
  have hempty : FileTree.list ⟨[(["d"], .folder)], []⟩ "d" = .ok [] := rfl
  have hcommands : ∀ x ∈ commands, x.IsPlain := by
    simp [commands, Command.IsPlain, isRecordId_ofWord]
  have hmade : Store.standing ⟨{ config := { dataDir := "d" } }, ⟨[(["d"], .folder)], []⟩⟩
      commands = [("T", ⟨[⟨"v", .integer⟩]⟩)] := by
    decide +kernel
  have hanswer : succeeds (fun entries _ => decide
      (entries = [{ id := EntryId.ofWord 5, data := [("v", .int 1)], queryTime := some 0 }]))
      (Store.queryOne ⟨"", 0⟩ (.get "T" (.dependencies []))
        (Store.after ⟨{ config := { dataDir := "d" } }, ⟨[(["d"], .folder)], []⟩⟩ commands)) =
          true := by
    decide +kernel
  obtain ⟨db, hopen, -, hstanding, hentries⟩ :=
    openDatabase_after hplain (by decide) hempty hcommands
  rw [hmade] at hstanding
  refine ⟨db, hopen, ?_, ?_⟩
  · intro t ht
    have hmem := (hstanding t.name t.schema).2 ⟨t, ht, rfl, rfl⟩
    exact congrArg Prod.fst (List.mem_singleton.1 hmem)
  · obtain ⟨t, ht, hname, hschema⟩ := (hstanding _ _).1 List.mem_cons_self
    obtain ⟨rows, hrows⟩ := hentries t ht
    obtain ⟨hbefore, hafter⟩ := hrows ⟨"", 0⟩
    rw [← hname, hbefore] at hanswer
    rw [← of_decide_eq_true hanswer]
    exact ⟨t, ht, hschema, hafter⟩

end RecordStore

import RecordStore.Proofs.Record.Header
import RecordStore.Proofs.Store.Registry
import RecordStore.Proofs.Store.Step

/-!
# Where tables are kept

A table whose name has no slash has its file directly in the folder of the tables, under its name,
and is found when the folder is opened. The rules for names do not ask for that, so a name with a
slash puts the file into another folder.

- `StoreConfig.IsPlain`: an extension that cannot be mistaken;
- `StoreConfig.isTableFile_tablePath`, `Store.loaded?_eq_some`: the file of a table is known by its
  name and loaded from its header;
- `Store.Declared`, `Store.Opened`, `Store.exists_opened`: what is found in a folder that exists;
- `Created.exists_folder`: the file of a new table is in the folder;
- `createTable_places`: where a new table has its file, and what is found when the folder is opened;
- `createTable_places_ne_of_slash`: a name with a slash.
-/

namespace RecordStore

/-! ## The names of table files -/

/-- The extension of table files is not empty, and it has no dots or slashes. -/
structure StoreConfig.IsPlain (config : StoreConfig) : Prop where
  ne_empty : config.extension ≠ ""
  no_dot : '.' ∉ config.extension.toList
  no_slash : '/' ∉ config.extension.toList

/-- The name of the file of a table. -/
def StoreConfig.fileName (config : StoreConfig) (name : String) : String :=
  name ++ "." ++ config.extension

namespace StoreConfig

variable {config : StoreConfig} {name : String} {files : FileTree} {place : Place}

/-- The name of a table file is too long to be dots. -/
theorem fileName_ne (hplain : config.IsPlain) (hname : name ≠ "") :
    Path.isFiller (config.fileName name) = false ∧ config.fileName name ≠ ".." := by
  have hlength : 3 ≤ (config.fileName name).length := by
    have hname : name.length ≠ 0 := by simpa using hname
    have hext : config.extension.length ≠ 0 := by simpa using hplain.ne_empty
    have hdot : (".").length = 1 := rfl
    simp only [fileName, String.length_append]
    omega
  have hne : ∀ dots : String, dots.length < 3 → config.fileName name ≠ dots := by
    rintro dots hdots rfl
    omega
  refine ⟨?_, hne ".." (by decide)⟩
  rw [Path.isFiller, beq_eq_false_iff_ne.2 (hne "" (by decide)),
    beq_eq_false_iff_ne.2 (hne "." (by decide))]
  rfl

theorem notMem_fileName (hplain : config.IsPlain) (hslash : '/' ∉ name.toList) :
    '/' ∉ (config.fileName name).toList := by
  simp [fileName, String.toList_append, hslash, hplain.no_slash]

/-- Tables have different files in one folder. -/
theorem fileName_inj {name' : String} (h : config.fileName name = config.fileName name') :
    name = name' := by
  have hchars := congrArg String.toList h
  simp only [fileName, String.toList_append, List.append_assoc] at hchars
  exact String.toList_inj.1 (List.append_cancel_right hchars)

/-- The path of a table leads to its file in the folder of the tables. -/
theorem exists_of_locate_tablePath (hplain : config.IsPlain) (hname : name ≠ "")
    (hslash : '/' ∉ name.toList) {found : Place × FileTree.Ending}
    (h : files.locate (config.tablePath name) = .ok found) :
    ∃ folder, files.enter config.dataDir = .ok folder ∧
      found = (folder ++ [config.fileName name], .name) := by
  obtain ⟨hfiller, hup⟩ := fileName_ne hplain hname
  exact FileTree.exists_of_locate_join (notMem_fileName hplain hslash) hfiller hup h

/-- The file of a table is known by its extension. -/
theorem isTableFile_tablePath (hplain : config.IsPlain) (hname : name ≠ "")
    (hslash : '/' ∉ name.toList) (hfile : files.HasFile (config.tablePath name) place) :
    config.isTableFile files (config.tablePath name) = true := by
  obtain ⟨hfiller, hup⟩ := fileName_ne hplain hname
  have hlast : (Path.segments (config.tablePath name)).getLast? = some (config.fileName name) := by
    rw [tablePath, Path.getLast?_segments_join]
    exact Path.getLast?_segments_of_notMem (notMem_fileName hplain hslash)
  have hfound := Path.fileName?_of_getLast? hlast hfiller hup
  rw [isTableFile, FileTree.isFile_iff.2 ⟨place, hfile⟩,
    Path.extension?_of_fileName? hfound hname hplain.no_dot, beq_self_eq_true, Bool.and_self]

end StoreConfig

/-! ## Opening a folder -/

namespace Store

variable {config : StoreConfig} {files : FileTree} {names : List String}

/-- A table is loaded with the name and the schema in the header of its file. -/
theorem loaded?_eq_some {path text : String} {header : Header}
    (hread : files.readText path = .ok text) (hheader : Header.decode text = .ok header) :
    loaded? files path = some { name := header.name, schema := header.schema, path } :=
  loaded?_eq_some_iff.2 (Table.load_eq_ok_iff.2 ⟨text, header, hread, hheader, rfl, rfl⟩)

/-- Whatever follows the header of a table, it is loaded from its file. -/
theorem loaded?_of_header {path name : String} {schema : Schema} (hname : Name.check name = .ok ())
    (hschema : schema.check = .ok ()) {rest : List Char}
    (hread : files.readText path = .ok (String.ofList (Header.encodeChars name schema ++ rest))) :
    loaded? files path = some { name, schema, path } := by
  have hheader := Header.decodeChars_encodeChars hname hschema rest
  rw [← String.toList_ofList (l := Header.encodeChars name schema ++ rest)] at hheader
  rw [loaded?_eq_some hread hheader]

theorem mem_tablePaths {path : String} :
    path ∈ tablePaths config files names ↔
      (∃ name ∈ names, Path.join config.dataDir name = path) ∧
        config.isTableFile files path = true := by
  rw [tablePaths, List.mem_mergeSort, List.mem_filter, List.mem_map]

/-- A file of a folder is a table file, and this is its table. -/
def Declared (config : StoreConfig) (files : FileTree) (folder : Place) (t : Table) : Prop :=
  ∃ name, (files.find? (folder ++ [name])).isSome = true ∧
    config.isTableFile files (Path.join config.dataDir name) = true ∧
    loaded? files (Path.join config.dataDir name) = some t

/-- A database has tables of a folder, one for each name that is declared there. -/
structure Opened (config : StoreConfig) (files : FileTree) (folder : Place) (db : Database) :
    Prop where
  same_config : db.config = config
  sorted : db.IsSorted
  declared : ∀ t ∈ db.tables, Declared config files folder t
  found : ∀ t, Declared config files folder t → ∃ u ∈ db.tables, u.name = t.name

theorem opened_registerFiles {folder : Place}
    (hnames : ∀ name, name ∈ names ↔ ∃ n, files.find? (folder ++ [name]) = some n) :
    Opened config files folder
      (registerFiles files { config } (tablePaths config files names)) := by
  have hempty : Database.IsSorted { config } := List.Pairwise.nil
  have hsorted := isSorted_registerFiles files hempty (tablePaths config files names)
  have hfind := find?_registerFiles files hempty (tablePaths config files names)
  refine ⟨config_registerFiles _, hsorted, ?_, ?_⟩
  · intro t ht
    have hfound := hsorted.find?_eq_some_iff.2 ⟨ht, rfl⟩
    rw [hfind] at hfound
    obtain ⟨path, hpath, hloaded⟩ := List.mem_filterMap.1 (List.mem_of_find?_eq_some hfound)
    obtain ⟨⟨name, hname, rfl⟩, htable⟩ := mem_tablePaths.1 hpath
    exact ⟨name, Option.isSome_iff_exists.2 ((hnames name).1 hname), htable, hloaded⟩
  · rintro t ⟨name, hname, htable, hloaded⟩
    have hpath := mem_tablePaths.2
      ⟨⟨name, (hnames name).2 (Option.isSome_iff_exists.1 hname), rfl⟩, htable⟩
    have hmem := List.mem_filterMap.2 ⟨_, hpath, hloaded⟩
    -- some table of this name comes first
    obtain ⟨u, hu⟩ := Option.isSome_iff_exists.1
      (List.find?_isSome (p := fun u : Table => u.name == t.name).2
        ⟨t, hmem, beq_self_eq_true t.name⟩)
    exact ⟨u, hsorted.find?_eq_some_iff.1 ((hfind t.name).trans hu)⟩

/-- A folder that exists is opened by registering its table files in ascending order. -/
theorem openDatabase_eq {folder : Place} (hfolder : files.HasFolder config.dataDir folder) :
    openDatabase config files = .ok (registerFiles files { config } (tablePaths config files
      (files.nodes.filterMap fun (p, _) => FileTree.nameBelow? folder p))) files := by
  have hlist := FileTree.list_eq_ok_iff.2 ⟨folder, hfolder, rfl⟩
  simp only [openDatabase, bind, EStateM.bind, Disk.makeFolders, EStateM.adaptExcept,
    FileTree.makeFolders_of_isFolder hfolder.isFolder, Disk.ask, hlist]

/-- A folder that exists is opened as it is, with one table for each name. -/
theorem exists_opened {folder : Place} (h : files.HasFolder config.dataDir folder) :
    ∃ db, openDatabase config files = .ok db files ∧ Opened config files folder db :=
  ⟨_, openDatabase_eq h, opened_registerFiles fun _ => FileTree.mem_filterMap_nameBelow?_iff⟩

end Store

/-! ## New tables -/

/-- A new table whose name has no slash has its file directly in the folder of the tables, where
nothing was before. Everything else that is new is a folder, where that one was missing. -/
theorem Table.Created.exists_folder {config : StoreConfig} {name : String} {schema : Schema}
    {files files' : FileTree} {t : Table} (h : t.Created config name schema files files')
    (hplain : config.IsPlain) (hslash : '/' ∉ name.toList) :
    ∃ folder, files'.enter config.dataDir = .ok folder ∧
      files.find? (folder ++ [config.fileName name]) = none ∧
      files'.LeadsTo (config.tablePath name) (folder ++ [config.fileName name]) ∧
      files'.find? (folder ++ [config.fileName name]) =
        some (.file (Header.encode name schema).toUTF8) ∧
      ∀ p n, files.find? p = none → files'.find? p = some n →
        p ≠ folder ++ [config.fileName name] →
          n = .folder ∧ files.isFolder config.dataDir = false := by
  have hname := Name.ne_empty_of_check h.name_valid
  have hpath : t.path = config.tablePath name := by rw [h.handle]
  have hdots : ∀ u p, FileTree.Grows config.dataDir files u → u.locate t.path = .ok (p, .dots) →
      u.find? p ≠ none := by
    -- the path of the table does not end with dots
    intro u p _ hlocate
    rw [hpath] at hlocate
    obtain ⟨folder, -, heq⟩ :=
      StoreConfig.exists_of_locate_tablePath hplain hname hslash hlocate
    cases heq
  obtain ⟨place, hnone, hleads, hheader, hothers⟩ := h.exists_place hdots
  rw [hpath] at hleads
  obtain ⟨folder, henter, heq⟩ :=
    StoreConfig.exists_of_locate_tablePath hplain hname hslash hleads.located
  cases heq
  exact ⟨folder, henter, hnone, hleads, hheader, hothers⟩

/-- A new table whose name has no slash has its file directly in the folder of the tables, where
nothing was before. Every node is still there, and all others that are new are folders. When the
folder is opened afterwards a table is found under the name; it is the new one unless another file
of the folder declares the same name. -/
theorem createTable_places {s s' : Store} (hext : s.database.config.extension = "tbl")
    (htree : s.files.IsTree) {name : String} (hslash : '/' ∉ name.toList) {schema : Schema}
    {t : Table} (hrun : Store.createTable name schema s = .ok t s') :
    ∃ folder, s'.files.enter s.database.config.dataDir = .ok folder ∧
      s.files.find? (folder ++ [name ++ ".tbl"]) = none ∧
      s'.files.find? (folder ++ [name ++ ".tbl"]) =
        some (.file (Header.encode name schema).toUTF8) ∧
      (∀ p n, s.files.find? p = some n → s'.files.find? p = some n) ∧
      (∀ p n, s.files.find? p = none → s'.files.find? p = some n →
        p ≠ folder ++ [name ++ ".tbl"] → n = .folder) ∧
      (s.database.config.dataDir ≠ "" →
        ∃ db, Store.openDatabase s.database.config s'.files = .ok db s'.files ∧
          (db.find? name).isSome = true ∧
          ((∀ u, Store.Declared s.database.config s'.files folder u → u.name = name → u = t) →
            db.find? name = some t)) := by
  have hplain : s.database.config.IsPlain :=
    ⟨by rw [hext]; decide, by rw [hext]; decide, by rw [hext]; decide⟩
  have heffect := Store.createTable_effect name schema s
  rw [hrun] at heffect
  obtain ⟨-, hcreated, -⟩ := heffect
  have hname := Name.ne_empty_of_check hcreated.name_valid
  have hfileName : s.database.config.fileName name = name ++ ".tbl" := by
    rw [StoreConfig.fileName, hext, String.append_assoc]
    rfl
  obtain ⟨folder, henter, hnone, hleads, hheader, hothers⟩ :=
    hcreated.exists_folder hplain hslash
  refine ⟨folder, henter, hfileName ▸ hnone, hfileName ▸ hheader, fun p n => hcreated.kept,
    fun p n hfree hp hother => (hothers p n hfree hp (hfileName ▸ hother)).1, ?_⟩
  intro hdir
  -- the folder is there, and the new file is among those that are found in it
  have htree' := hcreated.isTree htree
  have hvalid : Path.IsValid s.database.config.dataDir := by
    refine (FileTree.isValid_of_locate hleads.located).of_join hdir ?_
    exact Path.isAbsolute_of_notMem (StoreConfig.notMem_fileName hplain hslash)
  have hfolder := htree'.lookUp (htree'.walk (htree'.base _) henter)
  obtain ⟨db, hopen, hopened⟩ :=
    Store.exists_opened ⟨(FileTree.enter_eq_ok_iff hvalid hfolder).1 henter, hfolder⟩
  have hdeclared : Store.Declared s.database.config s'.files folder t := by
    refine ⟨s.database.config.fileName name, by rw [hheader]; rfl, ?_, ?_⟩
    · exact StoreConfig.isTableFile_tablePath hplain hname hslash ⟨hleads, _, hheader⟩
    · have hread := FileTree.readText_eq_ok hleads hheader
      rw [Header.encode, ← List.append_nil (Header.encodeChars name schema)] at hread
      have hloaded := Store.loaded?_of_header hcreated.name_valid hcreated.schema_valid hread
      rw [hcreated.handle]
      exact hloaded
  have hname' : t.name = name := by rw [hcreated.handle]
  obtain ⟨u, hu, hsame⟩ := hopened.found t hdeclared
  have hfound := hopened.sorted.find?_eq_some_iff.2 ⟨hu, hsame.trans hname'⟩
  refine ⟨db, hopen, by rw [hfound]; rfl, ?_⟩
  intro hsole
  rw [hfound, hsole u (hopened.declared u hu) (hsame.trans hname')]

/-- A table with the name of the folder above, in a folder that is missing. -/
theorem createTable_places_dots :
    ∃ t s', Store.createTable ".." ⟨[⟨"v", .integer⟩]⟩
        ⟨{ config := { dataDir := "d" } }, ⟨[], []⟩⟩ = .ok t s' ∧
      ∃ folder, s'.files.enter "d" = .ok folder ∧
        s'.files.find? (folder ++ [".." ++ ".tbl"]) = some (.file "[..,0:v]".toUTF8) ∧
        ∃ db, Store.openDatabase { dataDir := "d" } s'.files = .ok db s'.files ∧
          (db.find? "..").isSome = true := by
  refine exists_of_succeeds (p := fun _ _ => true) (by decide +kernel) ?_
  intro t s' hrun _
  obtain ⟨folder, henter, -, hfile, -, -, hopen⟩ :=
    createTable_places rfl FileTree.isTree_empty (by decide) hrun
  obtain ⟨db, hdb, hfound, -⟩ := hopen (by decide)
  exact ⟨folder, henter, hfile, db, hdb, hfound⟩

/-- A name with a slash is accepted, and its table has its file in another folder, where it is not
found when the folder of the tables is opened. -/
theorem createTable_places_ne_of_slash :
    ∃ t s', Store.createTable "a/T" ⟨[⟨"v", .integer⟩]⟩
        ⟨{ config := { dataDir := "d" } }, ⟨[(["d", "a"], .folder), (["d"], .folder)], []⟩⟩ =
          .ok t s' ∧
      s'.files.enter "d" = .ok ["d"] ∧
      s'.files.find? ["d", "a", "T.tbl"] = some (.file "[a/T,0:v]".toUTF8) ∧
      ∃ db files, Store.openDatabase { dataDir := "d" } s'.files = .ok db files ∧
        db.find? "a/T" = none := by
  refine exists_of_succeeds (p := fun _ s' =>
    decide (s'.files.enter "d" = .ok ["d"]) &&
      decide (s'.files.find? ["d", "a", "T.tbl"] = some (.file "[a/T,0:v]".toUTF8)) &&
      succeeds (fun db _ => decide (db.find? "a/T" = none))
        (Store.openDatabase { dataDir := "d" } s'.files)) (by decide +kernel) ?_
  intro t s' _ htest
  simp only [Bool.and_eq_true, decide_eq_true_iff] at htest
  obtain ⟨⟨henter, hfile⟩, hopen⟩ := htest
  exact ⟨henter, hfile, exists_of_succeeds hopen fun db files _ => of_decide_eq_true⟩

end RecordStore

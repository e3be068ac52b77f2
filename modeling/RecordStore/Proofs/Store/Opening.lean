import RecordStore.Proofs.Store.Placement
import RecordStore.Proofs.Text.Order

/-!
# Opening a folder

Whatever stands in a folder, and in whatever order it is listed, opening it registers under each
name the table of one file: of those that can be loaded and declare the name, the one whose own name
has the smallest bytes. No other file matters, and none is changed.

- `Path.IsName`, `Path.HasExtension`: the names of files;
- `Store.Offers`: a file of the folder that can be loaded, and its table (`offers_iff`);
- `find?_filterMap_eq_some_iff`: the first of a sorted list that gives something wanted;
- `Path.join_le_join_iff`: paths in one folder are in the order of the names;
- `openDatabase_registers`: what is registered.
-/

namespace RecordStore

/-! ## The names of files -/

namespace Path

/-- A name that a file of a folder can have. -/
structure IsName (name : String) : Prop where
  no_slash : '/' ∉ name.toList
  not_filler : isFiller name = false
  not_up : name ≠ ".."

instance (name : String) : Decidable (IsName name) :=
  decidable_of_iff ('/' ∉ name.toList ∧ isFiller name = false ∧ name ≠ "..")
    ⟨fun ⟨h₁, h₂, h₃⟩ => ⟨h₁, h₂, h₃⟩, fun ⟨h₁, h₂, h₃⟩ => ⟨h₁, h₂, h₃⟩⟩

/-- What follows the last dot of a name, unless that dot is its first character. -/
def HasExtension (name ext : String) : Prop :=
  ∃ stem, stem ≠ "" ∧ '.' ∉ ext.toList ∧ name = stem ++ "." ++ ext

variable {dir name ext : String}

theorem fileName?_join (h : IsName name) : fileName? (join dir name) = some name := by
  refine fileName?_of_getLast? ?_ h.not_filler h.not_up
  rw [getLast?_segments_join, getLast?_segments_of_notMem h.no_slash]

/-- The extension of a path is that of its last name. -/
theorem extension?_eq_some_iff {path : String} (h : fileName? path = some name) :
    extension? path = some ext ↔ HasExtension name ext := by
  constructor
  · intro hext
    simp only [extension?, h, Option.bind_eq_bind, Option.bind_some] at hext
    obtain ⟨⟨after, before⟩, hcut, hext⟩ := Option.bind_eq_some_iff.1 hext
    obtain ⟨hreverse, hafter⟩ := Text.cut?_eq_some_iff.1 hcut
    split at hext
    · cases hext
    · next hbefore =>
      cases hext
      refine ⟨String.ofList before.reverse, ?_, by simpa using hafter, ?_⟩
      · simpa using hbefore
      · rw [← String.toList_inj, ← List.reverse_inj, hreverse]
        simp
  · rintro ⟨stem, hstem, hext, rfl⟩
    exact extension?_of_fileName? h hstem hext

theorem strictMonoOn_join (dir : String) :
    StrictMonoOn (join dir) {name | isAbsolute name = false} := by
  intro a ha b hb hlt
  have ha : isAbsolute a = false := ha
  have hb : isAbsolute b = false := hb
  unfold join
  rw [ha, hb, Bool.false_or]
  split
  · exact hlt
  · split
    all_goals
      rw [String.lt_iff_toList_lt] at hlt ⊢
      simp only [String.toList_append]
      exact List.append_left_lt hlt

/-- Paths in one folder are in the order of the names. -/
theorem join_le_join_iff {a b : String} (ha : IsName a) (hb : IsName b) :
    join dir a ≤ join dir b ↔ Text.bytes a.toList ≤ Text.bytes b.toList := by
  rw [← Text.le_iff_bytes_le]
  exact (strictMonoOn_join dir).le_iff_le (isAbsolute_of_notMem ha.no_slash)
    (isAbsolute_of_notMem hb.no_slash)

end Path

/-! ## The files that are loaded -/

namespace Store

variable {config : StoreConfig} {files : FileTree} {folder : Place} {names : List String}
  {file : String} {t : Table}

/-- A regular file of the folder that has the extension of table files and can be loaded, and the
table that is loaded from it. -/
structure Offers (config : StoreConfig) (files : FileTree) (folder : Place) (file : String)
    (t : Table) : Prop where
  regular : ∃ content, files.find? (folder ++ [file]) = some (.file content)
  extension : Path.HasExtension file config.extension
  loaded : Table.load (Path.join config.dataDir file) files = .ok t files

/-- These are the files that are looked at when the folder is opened. -/
theorem offers_iff (hfolder : files.HasFolder config.dataDir folder) (hname : Path.IsName file) :
    Offers config files folder file t ↔
      config.isTableFile files (Path.join config.dataDir file) = true ∧
        loaded? files (Path.join config.dataDir file) = some t := by
  have hext : Path.extension? (Path.join config.dataDir file) = some config.extension ↔
      Path.HasExtension file config.extension :=
    Path.extension?_eq_some_iff (Path.fileName?_join hname)
  -- a path that leads to a file leads to the one of this name
  have hplace {place : Place} (h : files.LeadsTo (Path.join config.dataDir file) place) :
      place = folder ++ [file] := by
    obtain ⟨folder', henter, heq⟩ :=
      FileTree.exists_of_locate_join hname.no_slash hname.not_filler hname.not_up h.located
    cases hfolder.enter.symm.trans henter
    cases heq
    rfl
  rw [StoreConfig.isTableFile, Bool.and_eq_true, beq_iff_eq, hext, FileTree.isFile_iff,
    loaded?_eq_some_iff]
  constructor
  · rintro ⟨-, hextension, hloaded⟩
    obtain ⟨text, header, hread, -⟩ := Table.load_eq_ok_iff.1 hloaded
    obtain ⟨place, hleads, hfile⟩ := FileTree.readText_eq_ok_iff.1 hread
    exact ⟨⟨⟨place, hleads, _, hfile⟩, hextension⟩, hloaded⟩
  · rintro ⟨⟨⟨place, hleads, hfile⟩, hextension⟩, hloaded⟩
    rw [hplace hleads] at hfile
    exact ⟨hfile, hextension, hloaded⟩

/-! ## The first of them -/

/-- The paths are looked at in ascending order. -/
theorem pairwise_tablePaths (config : StoreConfig) (files : FileTree) (names : List String) :
    (tablePaths config files names).Pairwise (· ≤ ·) := by
  have hle (a b : String) : (!decide (b < a)) = true ↔ a ≤ b := by
    rw [Bool.not_eq_true', decide_eq_false_iff_not, not_lt]
  have htrans (a b c : String) (hab : (!decide (b < a)) = true) (hbc : (!decide (c < b)) = true) :
      (!decide (c < a)) = true := (hle a c).2 (le_trans ((hle a b).1 hab) ((hle b c).1 hbc))
  have htotal (a b : String) : (!decide (b < a) || !decide (a < b)) = true := by
    rw [Bool.or_eq_true, hle, hle]
    exact le_total a b
  exact (List.pairwise_mergeSort htrans htotal _).imp fun {a b} => (hle a b).1

end Store

/-- In a sorted list the first element that gives something wanted is the smallest one. -/
theorem find?_filterMap_eq_some_iff {α β : Type} [LinearOrder α] {f : α → Option β}
    {p : β → Bool} {as : List α} (h : as.Pairwise (· ≤ ·)) {b : β} :
    (as.filterMap f).find? p = some b ↔
      p b = true ∧ ∃ a ∈ as, f a = some b ∧
        ∀ a' ∈ as, ∀ b', f a' = some b' → p b' = true → a ≤ a' := by
  induction as with
  | nil => simp
  | cons a as ih =>
    obtain ⟨hhead, htail⟩ := List.pairwise_cons.1 h
    by_cases hwanted : ∃ c, f a = some c ∧ p c = true
    · obtain ⟨c, hc, hpc⟩ := hwanted
      rw [List.filterMap_cons_some hc, List.find?_cons_of_pos hpc]
      constructor
      · intro heq
        cases heq
        refine ⟨hpc, a, List.mem_cons_self, hc, ?_⟩
        exact List.forall_mem_cons.2 ⟨fun _ _ _ => le_rfl, fun a' ha' _ _ _ => hhead a' ha'⟩
      · rintro ⟨-, a', ha', hb, hleast⟩
        -- no smaller element than the head gives anything
        have hle : a' ≤ a := hleast a List.mem_cons_self c hc hpc
        obtain rfl : a' = a := by
          rcases List.mem_cons.1 ha' with rfl | ha'
          · rfl
          · exact le_antisymm hle (hhead a' ha')
        exact hc.symm.trans hb
    · have hskip : ((a :: as).filterMap f).find? p = (as.filterMap f).find? p := by
        cases hfa : f a with
        | none => rw [List.filterMap_cons_none hfa]
        | some c =>
          rw [List.filterMap_cons_some hfa, List.find?_cons_of_neg]
          exact fun hpc => hwanted ⟨c, hfa, hpc⟩
      rw [hskip, ih htail]
      refine and_congr_right fun hpb => ?_
      constructor
      · rintro ⟨a', ha', hb, hleast⟩
        refine ⟨a', List.mem_cons_of_mem a ha', hb, List.forall_mem_cons.2 ⟨?_, hleast⟩⟩
        exact fun c hc hpc => absurd ⟨c, hc, hpc⟩ hwanted
      · rintro ⟨a', ha', hb, hleast⟩
        rcases List.mem_cons.1 ha' with rfl | ha'
        · exact absurd ⟨b, hb, hpb⟩ hwanted
        · exact ⟨a', ha', hb, (List.forall_mem_cons.1 hleast).2⟩

namespace Store

variable {config : StoreConfig} {files files' : FileTree} {folder : Place} {names : List String}
  {t : Table}

/-- Under a name the table of the smallest file is registered that offers one of this name. -/
theorem find?_registerFiles_iff (hfolder : files.HasFolder config.dataDir folder)
    (hmem : ∀ file, file ∈ names ↔ ∃ n, files.find? (folder ++ [file]) = some n)
    (hnames : ∀ file ∈ names, Path.IsName file) {name : String} :
    (registerFiles files { config } (tablePaths config files names)).find? name = some t ↔
      t.name = name ∧ ∃ file, Offers config files folder file t ∧
        ∀ file' t', Offers config files folder file' t' → t'.name = name →
          Text.bytes file.toList ≤ Text.bytes file'.toList := by
  have hempty : Database.IsSorted { config } := List.Pairwise.nil
  have hpath {file : String} {u : Table} (hfile : file ∈ names) :
      Path.join config.dataDir file ∈ tablePaths config files names ∧
          loaded? files (Path.join config.dataDir file) = some u ↔
        Offers config files folder file u := by
    rw [offers_iff hfolder (hnames file hfile), mem_tablePaths]
    refine and_congr_left fun _ => and_iff_right ⟨file, hfile, rfl⟩
  have hlisted {file : String} {u : Table} (h : Offers config files folder file u) :
      file ∈ names := by
    obtain ⟨content, hfile⟩ := h.regular
    exact (hmem file).2 ⟨_, hfile⟩
  rw [find?_registerFiles files hempty]
  show ((tablePaths config files names).filterMap (loaded? files)).find? _ = some t ↔ _
  rw [find?_filterMap_eq_some_iff (pairwise_tablePaths config files names), beq_iff_eq]
  refine and_congr_right fun _ => ?_
  constructor
  · rintro ⟨path, hin, hloaded, hleast⟩
    obtain ⟨⟨file, hfile, rfl⟩, -⟩ := mem_tablePaths.1 hin
    refine ⟨file, (hpath hfile).1 ⟨hin, hloaded⟩, fun file' t' h' hname' => ?_⟩
    have hfile' := hlisted h'
    obtain ⟨hin', hloaded'⟩ := (hpath hfile').2 h'
    exact (Path.join_le_join_iff (hnames file hfile) (hnames file' hfile')).1
      (hleast _ hin' t' hloaded' (beq_iff_eq.2 hname'))
  · rintro ⟨file, h, hleast⟩
    have hfile := hlisted h
    obtain ⟨hin, hloaded⟩ := (hpath hfile).2 h
    refine ⟨_, hin, hloaded, fun path hin' t' hloaded' hname' => ?_⟩
    obtain ⟨⟨file', hfile', rfl⟩, -⟩ := mem_tablePaths.1 hin'
    exact (Path.join_le_join_iff (hnames file hfile) (hnames file' hfile')).2
      (hleast file' t' ((hpath hfile').1 ⟨hin', hloaded'⟩) (beq_iff_eq.1 hname'))

/-- What a file offers depends on what stands in the tree, not on the order in which it is
listed. -/
theorem Offers.of_find?_eq {file : String} (h : Offers config files folder file t)
    (hhere : files'.here = files.here) (hfind : ∀ p, files'.find? p = files.find? p) :
    Offers config files' folder file t := by
  have hkeeps : FileTree.KeepsFolders files files' := ⟨hhere, fun p hp => (hfind p).trans hp⟩
  obtain ⟨⟨content, hregular⟩, hextension, hloaded⟩ := h
  obtain ⟨text, header, hread, hdecode, ht, -⟩ := Table.load_eq_ok_iff.1 hloaded
  obtain ⟨place, hleads, hfile⟩ := FileTree.readText_eq_ok_iff.1 hread
  have hfile' := (hfind place).trans hfile
  have hread' := FileTree.readText_eq_ok (hleads.of_keepsFolders hkeeps (by simp [hfile'])) hfile'
  exact ⟨⟨content, (hfind _).trans hregular⟩, hextension,
    Table.load_eq_ok_iff.2 ⟨text, header, hread', hdecode, ht, rfl⟩⟩

/-- A folder that exists is opened, and the database is known by what is found in it. -/
theorem exists_openDatabase (hfolder : files.HasFolder config.dataDir folder)
    (hnames : ∀ file n, files.find? (folder ++ [file]) = some n → Path.IsName file) :
    ∃ db, openDatabase config files = .ok db files ∧ db.config = config ∧ db.IsSorted ∧
      ∀ name t, db.find? name = some t ↔
        t.name = name ∧ ∃ file, Offers config files folder file t ∧
          ∀ file' t', Offers config files folder file' t' → t'.name = name →
            Text.bytes file.toList ≤ Text.bytes file'.toList := by
  have hempty : Database.IsSorted { config } := List.Pairwise.nil
  refine ⟨_, openDatabase_eq hfolder, config_registerFiles _,
    isSorted_registerFiles files hempty _, fun name t =>
      find?_registerFiles_iff hfolder (fun _ => FileTree.mem_filterMap_nameBelow?_iff) ?_⟩
  intro file hfile
  obtain ⟨n, hn⟩ := FileTree.mem_filterMap_nameBelow?_iff.1 hfile
  exact hnames file n hn

end Store

/-- A folder that exists is opened whatever stands in it, and no file is changed. Under a name the
database has the table of one of the regular files with the extension of table files that can be
loaded and declare this name: that whose own name has the smallest bytes. It has no other tables,
each has the name and the schema in the header of its own file, and another order in which the
folder is listed makes no difference. -/
theorem openDatabase_registers {config : StoreConfig} {files : FileTree} {folder : Place}
    (hfolder : files.HasFolder config.dataDir folder)
    (hnames : ∀ file n, files.find? (folder ++ [file]) = some n → Path.IsName file) :
    ∃ db, Store.openDatabase config files = .ok db files ∧ db.config = config ∧
      (∀ name t, db.find? name = some t ↔
        t.name = name ∧ ∃ file, Store.Offers config files folder file t ∧
          ∀ file' t', Store.Offers config files folder file' t' → t'.name = name →
            Text.bytes file.toList ≤ Text.bytes file'.toList) ∧
      (∀ t, t ∈ db.tables ↔ db.find? t.name = some t) ∧
      (∀ t ∈ db.tables, ∃ text header, files.readText t.path = .ok text ∧
        Header.decode text = .ok header ∧ t.name = header.name ∧ t.schema = header.schema) ∧
      ∀ files' : FileTree, files'.here = files.here →
        (∀ p, files'.find? p = files.find? p) →
        Store.openDatabase config files' = .ok db files' := by
  obtain ⟨db, hopen, hconfig, hsorted, hfind⟩ := Store.exists_openDatabase hfolder hnames
  have hmem (t : Table) : t ∈ db.tables ↔ db.find? t.name = some t := by
    rw [hsorted.find?_eq_some_iff, and_iff_left rfl]
  refine ⟨db, hopen, hconfig, hfind, hmem, fun t ht => ?_, fun files' hhere hsame => ?_⟩
  · obtain ⟨-, file, hoffers, -⟩ := (hfind t.name t).1 ((hmem t).1 ht)
    obtain ⟨text, header, hread, hdecode, rfl, -⟩ := Table.load_eq_ok_iff.1 hoffers.loaded
    exact ⟨text, header, hread, hdecode, rfl, rfl⟩
  · have hkeeps : FileTree.KeepsFolders files files' := ⟨hhere, fun p hp => (hsame p).trans hp⟩
    obtain ⟨db', hopen', hconfig', hsorted', hfind'⟩ :=
      Store.exists_openDatabase (hfolder.of_keepsFolders hkeeps)
        fun file n hn => hnames file n ((hsame _).symm.trans hn)
    have hoffers (file : String) (t : Table) : Store.Offers config files' folder file t ↔
        Store.Offers config files folder file t :=
      ⟨fun h => h.of_find?_eq hhere.symm fun p => (hsame p).symm,
        fun h => h.of_find?_eq hhere hsame⟩
    -- the same files are offered, so the same tables are registered
    have htables (t : Table) : t ∈ db'.tables ↔ t ∈ db.tables := by
      rw [hmem, hfind, ← and_iff_left (a := t ∈ db'.tables) (rfl : t.name = t.name),
        ← hsorted'.find?_eq_some_iff, hfind']
      simp only [hoffers]
    rw [hopen', hsorted'.eq_of_mem_iff hsorted (hconfig'.trans hconfig.symm) htables]

/-- Two files that declare the same table, listed in both orders, with a file that is no table, one
that is no text, a folder with the extension of table files and a table file with another extension
beside them. -/
theorem openDatabase_registers_smallest :
    ∃ (a b : Place × Node) (others : List (Place × Node)) (db : Database),
      a = (["d", "a.tbl"], .file "[T,1:B]".toUTF8) ∧
      b = (["d", "b.tbl"], .file "[T,0:A]".toUTF8) ∧
      others = [(["d", "T.tbl"], .file "not a table".toUTF8), (["d", "Z.tbl"], .file ⟨#[0xff]⟩),
        (["d", "F.tbl"], .folder), (["d", "notes.txt"], .file "[Notes,2:Text]".toUTF8),
        (["d"], .folder)] ∧
      db.tables = [{ name := "T", schema := ⟨[⟨"B", .decimal⟩]⟩, path := "d/a.tbl" }] ∧
      Store.openDatabase { dataDir := "d" } ⟨b :: a :: others, []⟩ = .ok db ⟨b :: a :: others, []⟩ ∧
      Store.openDatabase { dataDir := "d" } ⟨a :: b :: others, []⟩ =
        .ok db ⟨a :: b :: others, []⟩ := by
  let a : Place × Node := (["d", "a.tbl"], .file "[T,1:B]".toUTF8)
  let b : Place × Node := (["d", "b.tbl"], .file "[T,0:A]".toUTF8)
  let others : List (Place × Node) := [(["d", "T.tbl"], .file "not a table".toUTF8),
    (["d", "Z.tbl"], .file ⟨#[0xff]⟩), (["d", "F.tbl"], .folder),
    (["d", "notes.txt"], .file "[Notes,2:Text]".toUTF8), (["d"], .folder)]
  let files : FileTree := ⟨b :: a :: others, []⟩
  let config : StoreConfig := { dataDir := "d" }
  have hfolder : files.HasFolder config.dataDir ["d"] := ⟨⟨.name, by decide⟩, by decide⟩
  have hlisted : ∀ file ∈ files.nodes.filterMap (FileTree.nameBelow? ["d"] ·.1),
      Path.IsName file := by
    decide
  obtain ⟨db, hopen, -, -, -, -, horder⟩ := openDatabase_registers hfolder
    fun file n hn => hlisted file (FileTree.mem_filterMap_nameBelow?_iff.2 ⟨n, hn⟩)
  have hpaths : Store.tablePaths { dataDir := "d" } files
      ["b.tbl", "a.tbl", "T.tbl", "Z.tbl", "F.tbl", "notes.txt"] =
        ["d/T.tbl", "d/Z.tbl", "d/a.tbl", "d/b.tbl"] := by
    refine List.Perm.eq_of_pairwise (fun _ _ _ _ => le_antisymm)
      (Store.pairwise_tablePaths _ files _) (by decide) ((List.mergeSort_perm _ _).trans ?_)
    decide +kernel
  have hdb := hopen.symm.trans (Store.openDatabase_eq hfolder)
  cases hdb
  have htables : (Store.registerFiles files { config := { dataDir := "d" } }
      ["d/T.tbl", "d/Z.tbl", "d/a.tbl", "d/b.tbl"]).tables =
        [{ name := "T", schema := ⟨[⟨"B", .decimal⟩]⟩, path := "d/a.tbl" }] := by
    decide +kernel
  refine ⟨a, b, others, _, rfl, rfl, rfl, (hpaths ▸ htables :), hopen,
    horder ⟨a :: b :: others, []⟩ rfl fun p => ?_⟩
  -- the two places differ, so their order makes no difference to a lookup
  by_cases ha : p = a.1
  · subst ha
    rfl
  · by_cases hb : p = b.1
    · subst hb
      rfl
    · have ha : (p == ["d", "a.tbl"]) = false := beq_false_of_ne ha
      have hb : (p == ["d", "b.tbl"]) = false := beq_false_of_ne hb
      simp only [files, a, b, FileTree.find?, List.lookup_cons, ha, hb]

end RecordStore

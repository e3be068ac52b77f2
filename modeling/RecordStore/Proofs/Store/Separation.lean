import RecordStore.Proofs.Store.Registry
import RecordStore.Proofs.Store.Step

/-!
# Tables do not disturb each other

A query writes to the file of its table and to the temporary file beside it. The files of different
tables are at different places, and the name of a temporary file does not end as the names of table
files do, unless the extension itself ends with that of temporary files. So a query leaves the files
of all other tables as they were.

- `StoreConfig.MixesTemporary`: the extensions for which a temporary file may be a table file;
- `notLeadsTo_temporaryPath`: for any other, no table file is a temporary file;
- `Orderly`: different tables have different files; `Orderly.perform`, `orderly_after`: it stays so;
- `read_after_query`: the file of another table is not touched;
- `read_after_query_of_tmp`: with the extension `tmp` it may be gone.
-/

namespace RecordStore

/-! ## The names of files -/

/-- What the name of a temporary file has after the name of the table file may end with the
extension of table files: the extension is `tmp`, `tmp.tmp` and so on. -/
def StoreConfig.MixesTemporary (c : StoreConfig) : Prop :=
  '.' :: c.extension.toList <:+ '.' :: c.extension.toList ++ ".tmp".toList

instance (c : StoreConfig) : Decidable c.MixesTemporary :=
  inferInstanceAs (Decidable (_ <:+ _))

namespace StoreConfig

variable {config : StoreConfig} {name last : String}

theorem toList_fileName (name ext : String) :
    (name ++ "." ++ ext).toList = name.toList ++ '.' :: ext.toList := by
  simp [String.toList_append]

/-- The path of a table ends with its extension. -/
theorem suffix_of_getLast?_segments (hslash : '/' ∉ config.extension.toList)
    (h : (Path.segments (config.tablePath name)).getLast? = some last) :
    '.' :: config.extension.toList <:+ last.toList := by
  rw [tablePath, Path.getLast?_segments_join] at h
  have hext : '.' :: config.extension.toList <:+ (name ++ "." ++ config.extension).toList := by
    rw [toList_fileName]
    exact List.suffix_append _ _
  obtain ⟨-, hlast | ⟨before, hlast⟩⟩ := Path.getLast?_segments_eq_some_iff.1 h
  · rwa [hlast] at hext
  · have hend : '/' :: last.toList <:+ (name ++ "." ++ config.extension).toList := by
      rw [hlast]
      exact List.suffix_append _ _
    -- the extension comes after the last slash, for it has none
    rcases List.suffix_or_suffix_of_suffix hext hend with h | h
    · rcases List.suffix_cons_iff.1 h with h | h
      · exact absurd (List.cons.inj h).1 (by decide)
      · exact h
    · rcases List.mem_cons.1 (h.subset List.mem_cons_self) with h | h
      · exact absurd h (by decide)
      · exact absurd h hslash

/-- If there is a slash in the extension, the paths of all tables end with one name. -/
theorem getLast?_segments_tablePath (hslash : '/' ∈ config.extension.toList) (name : String) :
    (Path.segments (config.tablePath name)).getLast? =
      (Path.segments config.extension).getLast? := by
  obtain ⟨before, after, hext⟩ := List.append_of_mem hslash
  have hfile : (name ++ "." ++ config.extension).toList =
      (name.toList ++ '.' :: before) ++ '/' :: after := by
    rw [toList_fileName, hext, List.append_assoc, List.cons_append]
  have hne := Text.splitOn_ne_nil '/' after
  rw [tablePath, Path.getLast?_segments_join, Path.segments, Path.segments, hfile, hext,
    Text.splitOn_append_cons, Text.splitOn_append_cons, List.getLast?_map, List.getLast?_map,
    List.getLast?_append_of_ne_nil _ hne, List.getLast?_append_of_ne_nil _ hne]

end StoreConfig

namespace Table

variable {t : Table} {files : FileTree} {own place : Place}

/-- The name of the temporary file is the one of the table file between a dot and another
extension. -/
theorem getLast?_segments_temporaryPath (h : files.LeadsTo t.path own) :
    ∃ last, (Path.segments t.path).getLast? = some last ∧
      (Path.segments t.temporaryPath).getLast? = some ("." ++ last ++ ".tmp") := by
  obtain ⟨folder, last, -, hlast, hfiller, hup⟩ := FileTree.exists_name_of_locate h.located
  refine ⟨last, hlast, ?_⟩
  have hslash : '/' ∉ ("." ++ last ++ ".tmp").toList := by
    have hfree := (Path.getLast?_segments_eq_some_iff.1 hlast).1
    simp [String.toList_append, hfree]
  rw [temporaryPath, Path.fileName?_of_getLast? hlast hfiller hup]
  exact Path.getLast?_withFileName t.path hslash

/-- No table has the temporary file of a table. -/
theorem notLeadsTo_temporaryPath {config : StoreConfig} (hmixes : ¬config.MixesTemporary)
    (hpath : t.path = config.tablePath t.name) (hown : files.LeadsTo t.path own)
    (htemporary : files.LeadsTo t.temporaryPath place) (name : String) :
    ¬files.LeadsTo (config.tablePath name) place := by
  intro hplace
  obtain ⟨last, hlast, hlast'⟩ := getLast?_segments_temporaryPath hown
  obtain ⟨folder, other, hfolder, hother, -, -⟩ := FileTree.exists_name_of_locate hplace.located
  obtain ⟨folder', other', hfolder', hother', -, -⟩ :=
    FileTree.exists_name_of_locate htemporary.located
  -- the two paths lead to one place, so they end with one name
  have hsame : other = "." ++ last ++ ".tmp" := by
    rw [hfolder] at hfolder'
    obtain ⟨-, hnames⟩ := List.append_inj' hfolder' rfl
    rw [List.singleton_inj.1 hnames]
    rw [hlast'] at hother'
    exact (Option.some.inj hother').symm
  subst hsame
  rw [hpath] at hlast
  by_cases hslash : '/' ∈ config.extension.toList
  · rw [StoreConfig.getLast?_segments_tablePath hslash] at hlast hother
    have hlonger := congrArg String.length (Option.some.inj (hlast.symm.trans hother))
    simp only [String.length_append] at hlonger
    have hdot : (".").length = 1 := rfl
    omega
  · obtain ⟨stem, hstem⟩ := StoreConfig.suffix_of_getLast?_segments hslash hlast
    have hend := StoreConfig.suffix_of_getLast?_segments hslash hother
    have hlong : '.' :: config.extension.toList ++ ".tmp".toList <:+
        ("." ++ last ++ ".tmp").toList := by
      refine ⟨'.' :: stem, ?_⟩
      simp [String.toList_append, ← hstem]
    exact hmixes (List.suffix_of_suffix_length_le hend hlong (by simp))

/-- A query on a table leaves the file of another table at another place alone. -/
theorem Effect.find?_of_other {config : StoreConfig} (hmixes : ¬config.MixesTemporary)
    {t' u : Table} {files' : FileTree} (h : t.Effect files t' files')
    (hpath : t.path = config.tablePath t.name) (hown : files.LeadsTo t.path own)
    (hpath' : u.path = config.tablePath u.name) (hplace : files.LeadsTo u.path place)
    (hne : own ≠ place) : files'.find? place = files.find? place := by
  refine h.find?_of_ne (fun hsame => hne (hown.unique hsame)) ?_
  intro htemporary
  rw [hpath'] at hplace
  exact notLeadsTo_temporaryPath hmixes hpath hown htemporary u.name hplace

/-- Only a table that was not dropped runs a query. -/
theorem dropped_of_query {c : Circumstances} {q : Query} {result : EntrySet × Table}
    {files' : FileTree} (h : t.query c q files = .ok result files') : t.dropped = false :=
  (query_eq_ok_iff.1 h).1

end Table

/-! ## Different files -/

/-- The registered tables have paths in the folder of the database, and those that were not dropped
have different files. -/
structure Orderly (s : Store) : Prop where
  tree : s.files.IsTree
  sorted : s.database.IsSorted
  path : ∀ t ∈ s.database.tables, t.path = s.database.config.tablePath t.name
  file : ∀ t ∈ s.database.tables, t.dropped = false → ∃ place, s.files.HasFile t.path place
  apart : ∀ t ∈ s.database.tables, ∀ u ∈ s.database.tables, t.dropped = false →
    u.dropped = false → ∀ place, s.files.HasFile t.path place → s.files.HasFile u.path place → t = u

variable {s s' : Store}

/-- A database without tables has none with the same file. -/
theorem orderly_empty (config : StoreConfig) {files : FileTree} (h : files.IsTree) :
    Orderly ⟨{ config }, files⟩ :=
  ⟨h, List.Pairwise.nil, List.forall_mem_nil _, List.forall_mem_nil _, List.forall_mem_nil _⟩

namespace Orderly

/-- Tables have different files again if each of them was there before and has kept its file, or
has a file of its own. -/
theorem of_kept (h : Orderly s) (htree : s'.files.IsTree) (hsorted : s'.database.IsSorted)
    (hpath : ∀ u ∈ s'.database.tables, u.path = s'.database.config.tablePath u.name)
    (hfile : ∀ u ∈ s'.database.tables, u.dropped = false →
      (u ∈ s.database.tables ∧
        ∀ place, s.files.HasFile u.path place → s'.files.HasFile u.path place) ∨
      ∃ place, s'.files.HasFile u.path place ∧ ∀ v ∈ s'.database.tables, v.dropped = false →
        s'.files.HasFile v.path place → v = u) : Orderly s' := by
  refine ⟨htree, hsorted, hpath, ?_, ?_⟩
  · intro u hu hlive
    obtain ⟨hold, hkept⟩ | ⟨place, hplace, -⟩ := hfile u hu hlive
    · obtain ⟨place, hplace⟩ := h.file u hold hlive
      exact ⟨place, hkept place hplace⟩
    · exact ⟨place, hplace⟩
  · intro t ht u hu htlive hulive place htplace huplace
    obtain ⟨htold, htkept⟩ | ⟨own, hown, hsole⟩ := hfile t ht htlive
    · obtain ⟨huold, hukept⟩ | ⟨own, hown, hsole⟩ := hfile u hu hulive
      · -- both files are where they were
        obtain ⟨p, hp⟩ := h.file t htold htlive
        obtain ⟨q, hq⟩ := h.file u huold hulive
        have hp' := (htkept p hp).1.unique htplace.1
        have hq' := (hukept q hq).1.unique huplace.1
        rw [hp'] at hp
        rw [hq'] at hq
        exact h.apart t htold u huold htlive hulive place hp hq
      · have heq := hown.1.unique huplace.1
        subst heq
        exact hsole t ht htlive htplace
    · have heq := hown.1.unique htplace.1
      subst heq
      exact (hsole u hu hulive huplace).symm

/-- Making folders leaves the files where they are. -/
theorem of_grows (h : Orderly s) {path : String} {files : FileTree}
    (hgrows : FileTree.Grows path s.files files) : Orderly ⟨s.database, files⟩ := by
  refine h.of_kept (h.tree.grows hgrows) h.sorted h.path fun u hu _ => .inl ⟨hu, ?_⟩
  exact fun place hplace => hplace.of_kept hgrows.madeFolders.keepsFolders
    fun n => hgrows.madeFolders.kept place n

/-- A new table has a file of its own. -/
theorem of_created (h : Orderly s) {name : String} {schema : Schema} {t : Table} {files : FileTree}
    (hfree : s.database.find? name = none)
    (hcreated : t.Created s.database.config name schema s.files files) :
    Orderly ⟨s.database.insert t, files⟩ := by
  obtain ⟨place, hnone, hleads, hheader, -⟩ := hcreated.exists_place
    fun _ _ => Table.Created.find?_ne_none_of_isTree h.tree
  have hname : t.name = name := by rw [hcreated.handle]
  have hkept : ∀ path p, s.files.HasFile path p → files.HasFile path p :=
    fun path p hp => hp.of_kept hcreated.keepsFolders fun n => hcreated.kept
  refine h.of_kept (hcreated.isTree h.tree) (h.sorted.insert (hname ▸ hfree)) ?_ ?_
  · intro u hu
    rcases Database.mem_insert.1 hu with rfl | hu
    · rw [hname, hcreated.handle]
      rfl
    · exact h.path u hu
  · intro u hu hlive
    rcases Database.mem_insert.1 hu with rfl | hu
    · refine .inr ⟨place, ⟨hleads, _, hheader⟩, ?_⟩
      intro v hv hvlive hvplace
      rcases Database.mem_insert.1 hv with rfl | hv
      · rfl
      · -- where a table had its file there was something before
        obtain ⟨q, hq⟩ := h.file v hv hvlive
        have heq := (hkept _ q hq).1.unique hvplace.1
        obtain ⟨-, content, hfile⟩ := hq
        rw [heq, hnone] at hfile
        cases hfile
    · exact .inl ⟨hu, hkept u.path⟩

/-- A query leaves the file of every other table alone. -/
theorem kept_of_query (h : Orderly s) (hmixes : ¬s.database.config.MixesTemporary) {t t' u : Table}
    (ht : t ∈ s.database.tables) (hlive : t.dropped = false) {files' : FileTree}
    (heffect : t.Effect s.files t' files') (hu : u ∈ s.database.tables) (hne : u.name ≠ t.name)
    (hulive : u.dropped = false) {place : Place} (hplace : s.files.HasFile u.path place) :
    files'.find? place = s.files.find? place := by
  obtain ⟨own, hown⟩ := h.file t ht hlive
  refine heffect.find?_of_other hmixes (h.path t ht) hown.1 (h.path u hu) hplace.1 ?_
  rintro rfl
  have heq := h.apart t ht u hu hlive hulive own hown hplace
  exact hne (by rw [heq])

/-- After a query the tables that are left have their files. -/
theorem of_effect (h : Orderly s) (hmixes : ¬s.database.config.MixesTemporary) {t t' : Table}
    (ht : t ∈ s.database.tables) (hlive : t.dropped = false) {files' : FileTree}
    (heffect : t.Effect s.files t' files') : Orderly ⟨s.database.replace t', files'⟩ := by
  obtain ⟨hname, -, hpath⟩ := heffect.same
  refine h.of_kept (heffect.isTree h.tree) (h.sorted.replace t') ?_ ?_
  · intro u hu
    rcases Database.mem_replace.1 hu with ⟨rfl, -⟩ | ⟨hu, -⟩
    · rw [hpath, hname]
      exact h.path t ht
    · exact h.path u hu
  · intro u hu hulive
    rcases Database.mem_replace.1 hu with ⟨rfl, -⟩ | ⟨hu, hne⟩
    · -- a table that was not dropped is the same handle
      have heq : u = t := by
        rcases heffect.handle with rfl | rfl
        · rfl
        · cases hulive
      refine .inl ⟨heq ▸ ht, ?_⟩
      intro place hplace
      rw [heq] at hplace ⊢
      obtain ⟨hleads, content, hfile⟩ := hplace
      exact ⟨heffect.leadsTo hleads, heffect.exists_file hulive hleads hfile⟩
    · refine .inl ⟨hu, ?_⟩
      intro place hplace
      have hkept := h.kept_of_query hmixes ht hlive heffect hu (hname ▸ hne) hulive hplace
      exact ⟨heffect.leadsTo hplace.1, hkept ▸ hplace.2⟩

/-- One command leaves different tables with different files. -/
theorem perform (h : Orderly s) (hmixes : ¬s.database.config.MixesTemporary) (x : Command) :
    Orderly (s.perform x).2 ∧ (s.perform x).2.database.config = s.database.config := by
  have hstep := s.step_perform x
  generalize s.perform x = result at hstep ⊢
  cases hstep with
  | created name schema t files free made => exact ⟨h.of_created free made, rfl⟩
  | refused name schema e files grows => exact ⟨h.of_grows grows, rfl⟩
  | answered c q t t' answer files found ran =>
    have heffect := Table.query_effect t s.files c q
    rw [ran] at heffect
    have ht := (h.sorted.find?_eq_some_iff.1 found).1
    exact ⟨h.of_effect hmixes ht (Table.dropped_of_query ran) heffect, rfl⟩
  | failed c q e => exact ⟨h, rfl⟩

end Orderly

/-- Whatever commands are carried out, different tables have different files. -/
theorem orderly_after {config : StoreConfig} (hmixes : ¬config.MixesTemporary) {files : FileTree}
    (htree : files.IsTree) (commands : List Command) :
    Orderly (Store.after ⟨{ config }, files⟩ commands) ∧
      (Store.after ⟨{ config }, files⟩ commands).database.config = config := by
  refine Store.after_induction (P := fun s => Orderly s ∧ s.database.config = config)
    ⟨orderly_empty config htree, rfl⟩ ?_
  rintro s x - ⟨h, hconfig⟩
  rw [← hconfig] at hmixes
  obtain ⟨hnext, hconfig'⟩ := h.perform hmixes x
  exact ⟨hnext, hconfig'.trans hconfig⟩

/-- A query on another table leaves the file of a table, which is there as long as the table was not
dropped, as it is: in every folder, for all tables that can be made and after any commands, unless
the extension ends as that of temporary files does. -/
theorem read_after_query {config : StoreConfig} (hmixes : ¬config.MixesTemporary)
    {files : FileTree} (htree : files.IsTree) (commands : List Command) :
    let s := Store.after ⟨{ config }, files⟩ commands
    ∀ u ∈ s.database.tables, u.dropped = false → ∀ c q, q.table ≠ u.name →
      ∃ content, s.files.read u.path = .ok content ∧
        (s.perform (.query c q)).2.files.read u.path = .ok content := by
  intro s u hu hlive c q hother
  obtain ⟨h, hconfig⟩ := orderly_after hmixes htree commands
  rw [← hconfig] at hmixes
  obtain ⟨place, hplace⟩ := h.file u hu hlive
  obtain ⟨hleads, content, hfile⟩ := hplace
  refine ⟨content, FileTree.read_eq_ok_iff.2 ⟨place, hleads, hfile⟩, ?_⟩
  have hstep := s.step_perform (.query c q)
  generalize s.perform (.query c q) = result at hstep ⊢
  cases hstep with
  | answered _ _ t t' answer files' found ran =>
    have heffect := Table.query_effect t s.files c q
    rw [ran] at heffect
    obtain ⟨ht, hname⟩ := h.sorted.find?_eq_some_iff.1 found
    have hkept := h.kept_of_query hmixes ht (Table.dropped_of_query ran) heffect hu
      (hname ▸ hother.symm) hlive ⟨hleads, content, hfile⟩
    exact FileTree.read_eq_ok_iff.2 ⟨place, heffect.leadsTo hleads, hkept.trans hfile⟩
  | failed _ _ e => exact FileTree.read_eq_ok_iff.2 ⟨place, hleads, hfile⟩

/-- The extension ends as that of temporary files does, but is longer. -/
theorem read_after_query_longer :
    ¬StoreConfig.MixesTemporary { dataDir := "d", extension := "x.tmp" } ∧
      FileTree.IsTree ⟨[], []⟩ ∧
      let s := Store.after ⟨{ config := { dataDir := "d", extension := "x.tmp" } }, ⟨[], []⟩⟩
        [.create "T" ⟨[⟨"v", .integer⟩]⟩, .create ".T" ⟨[⟨"v", .integer⟩]⟩,
          .query ⟨"a", 0⟩ (.add "T" [.bare "1"])]
      ∃ u ∈ s.database.tables, u.name = ".T" ∧ u.dropped = false ∧
        ∃ content, s.files.read u.path = .ok content ∧
          (s.perform (.query ⟨"", 0⟩ (.remove "T" (.dependencies [])))).2.files.read u.path =
            .ok content := by
  have hmixes : ¬StoreConfig.MixesTemporary { dataDir := "d", extension := "x.tmp" } := by decide
  refine ⟨hmixes, FileTree.isTree_empty, ?_⟩
  refine ⟨{ name := ".T", schema := ⟨[⟨"v", .integer⟩]⟩, path := "d/.T.x.tmp" }, ?_, rfl, rfl, ?_⟩
  · decide +kernel
  · exact read_after_query hmixes FileTree.isTree_empty _ _ (by decide +kernel) rfl _ _ (by decide)

/-- With the extension `tmp`, a table may have the name of the temporary file of another one. That
one is written and moved away when an entry is removed, and with it the table. -/
theorem read_after_query_of_tmp :
    let s := Store.after ⟨{ config := { dataDir := "d", extension := "tmp" } }, ⟨[], []⟩⟩
      [.create "T" ⟨[⟨"v", .integer⟩]⟩, .create ".T.tmp" ⟨[⟨"v", .integer⟩]⟩,
        .query ⟨"a", 0⟩ (.add "T" [.bare "1"])]
    let s' := (s.perform (.query ⟨"", 0⟩ (.remove "T" (.dependencies [])))).2
    ∃ u ∈ s.database.tables, u.name = ".T.tmp" ∧ u.dropped = false ∧
      s.files.isFile u.path = true ∧
      s'.database.find? ".T.tmp" = some u ∧ s'.files.isFile u.path = false := by
  intro s s'
  refine ⟨{ name := ".T.tmp", schema := ⟨[⟨"v", .integer⟩]⟩, path := "d/.T.tmp.tmp" }, ?_⟩
  decide +kernel

end RecordStore

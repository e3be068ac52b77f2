import RecordStore.Proofs.FileTree
import RecordStore.Proofs.Text.Split

/-!
# The name at the end of a path

A name that is joined to a folder stands at the end of the path, and the path leads to this name in
the folder. Two paths that end differently therefore lead to different places.

- `Path.getLast?_segments_join`, `Path.names_join`: the names of a path that was joined;
- `Path.fileName?_of_getLast?`, `Path.extension?_of_fileName?`, `Path.getLast?_withFileName`: what
  is read off the end of a path, and what is put there;
- `FileTree.exists_name_of_locate`: a place has the name that its path ends with;
- `FileTree.enter`, `FileTree.locate_join`: the folder that a path leads into, and the names in it.
-/

namespace RecordStore

namespace Path

/-! ## The end of a path -/

/-- A path ends with what comes after its last slash. -/
theorem getLast?_segments_eq_some_iff {path name : String} :
    (segments path).getLast? = some name ↔
      '/' ∉ name.toList ∧
        (path.toList = name.toList ∨ ∃ before, path.toList = before ++ '/' :: name.toList) := by
  rw [segments, List.getLast?_map, Option.map_eq_some_iff]
  constructor
  · rintro ⟨part, hpart, rfl⟩
    rw [String.toList_ofList]
    exact Text.getLast?_splitOn_eq_some_iff.1 hpart
  · intro h
    exact ⟨name.toList, Text.getLast?_splitOn_eq_some_iff.2 h, String.ofList_toList⟩

theorem getLast?_segments_of_notMem {name : String} (h : '/' ∉ name.toList) :
    (segments name).getLast? = some name :=
  getLast?_segments_eq_some_iff.2 ⟨h, .inl rfl⟩

/-- A path below a folder is the path of the folder, a slash and the rest, unless the folder does
not count. The slash may be one that the folder ends with. -/
theorem join_cases (dir name : String) :
    join dir name = name ∧ (isAbsolute name = true ∨ dir = "") ∨
      ∃ before, (join dir name).toList = before ++ '/' :: name.toList ∧
        (dir.toList = before ∧ before ≠ [] ∨ dir.toList = before ++ ['/']) := by
  unfold join
  split
  · next h =>
    refine .inl ⟨rfl, ?_⟩
    rw [Bool.or_eq_true, List.isEmpty_iff, String.toList_eq_nil_iff] at h
    exact h
  · next h =>
    rw [Bool.or_eq_true, not_or, Bool.not_eq_true, List.isEmpty_iff] at h
    split
    · next hslash =>
      obtain ⟨before, hdir⟩ := List.getLast?_eq_some_iff.1 (beq_iff_eq.1 hslash)
      exact .inr ⟨before, by rw [String.toList_append, hdir]; simp, .inr hdir⟩
    · exact .inr ⟨dir.toList, by simp [String.toList_append], .inl ⟨rfl, h.2⟩⟩

/-- Joining puts a path at the end. -/
theorem getLast?_segments_join (dir name : String) :
    (segments (join dir name)).getLast? = (segments name).getLast? := by
  obtain ⟨heq, -⟩ | ⟨before, heq, -⟩ := join_cases dir name
  · rw [heq]
  · have hne := Text.splitOn_ne_nil '/' name.toList
    rw [segments, heq, Text.splitOn_append_cons, segments, List.getLast?_map, List.getLast?_map,
      List.getLast?_append_of_ne_nil _ hne]

/-- What is read off the end of a path as the name of a file. -/
theorem fileName?_of_getLast? {path name : String} (h : (segments path).getLast? = some name)
    (hname : isFiller name = false) (hup : name ≠ "..") : fileName? path = some name := by
  obtain ⟨before, hsegments⟩ := List.getLast?_eq_some_iff.1 h
  rw [fileName?, hsegments, List.reverse_append, List.reverse_singleton, List.singleton_append,
    List.dropWhile_cons_of_neg (by rw [hname]; simp)]
  exact if_neg hup

/-- What follows the last dot of the name at the end of a path. -/
theorem extension?_of_fileName? {path stem ext : String}
    (h : fileName? path = some (stem ++ "." ++ ext)) (hstem : stem ≠ "")
    (hext : '.' ∉ ext.toList) : extension? path = some ext := by
  have hreverse : (stem ++ "." ++ ext).toList.reverse =
      ext.toList.reverse ++ '.' :: stem.toList.reverse := by
    simp [String.toList_append]
  have hcut : Text.cut? '.' (stem ++ "." ++ ext).toList.reverse =
      some (ext.toList.reverse, stem.toList.reverse) := by
    rw [hreverse]
    exact Text.cut?_append (mt List.mem_reverse.1 hext) _
  have hbefore : stem.toList.reverse ≠ [] := by simpa using hstem
  simp only [extension?, h, Option.bind_eq_bind, Option.bind_some, hcut]
  rw [if_neg (by simpa using hbefore), List.reverse_reverse, String.ofList_toList]

/-- A path gets the last name that it is given. -/
theorem getLast?_withFileName (path : String) {name : String} (h : '/' ∉ name.toList) :
    (segments (withFileName path name)).getLast? = some name := by
  unfold withFileName
  split <;> rw [getLast?_segments_join, getLast?_segments_of_notMem h]

/-! ## The names of a path -/

/-- The names that a path goes through. -/
def names (path : String) : List String := (segments path).filter (· ≠ "")

/-- A path that was joined goes through the names of the folder first. -/
theorem names_join {dir name : String} (h : isAbsolute name = false) :
    names (join dir name) = names dir ++ names name := by
  obtain ⟨heq, habsolute | rfl⟩ | ⟨before, heq, hdir⟩ := join_cases dir name
  · rw [h] at habsolute
    cases habsolute
  · rw [heq]
    rfl
  · have hjoin : names (join dir name) =
        ((Text.splitOn '/' before).map String.ofList).filter (· ≠ "") ++ names name := by
      rw [names, segments, heq, Text.splitOn_append_cons, List.map_append, List.filter_append]
      rfl
    have hdir : names dir = ((Text.splitOn '/' before).map String.ofList).filter (· ≠ "") := by
      rcases hdir with ⟨hdir, -⟩ | hdir
      · rw [names, segments, hdir]
      · rw [names, segments, hdir, Text.splitOn_append_cons, List.map_append, List.filter_append]
        exact List.append_nil _
    rw [hjoin, hdir]

theorem isAbsolute_join {dir name : String} (h : isAbsolute name = false) :
    isAbsolute (join dir name) = isAbsolute dir := by
  obtain ⟨heq, habsolute | rfl⟩ | ⟨before, heq, hdir⟩ := join_cases dir name
  · rw [h] at habsolute
    cases habsolute
  · rw [heq, h]
    rfl
  · rw [isAbsolute, heq, isAbsolute]
    rcases hdir with ⟨hdir, hne⟩ | hdir
    · rw [hdir, List.head?_append_of_ne_nil _ hne]
    · cases before with
      | nil => rw [hdir]; rfl
      | cons c before => rw [hdir]; rfl

theorem isAbsolute_of_notMem {name : String} (h : '/' ∉ name.toList) : isAbsolute name = false := by
  rw [isAbsolute, beq_eq_false_iff_ne]
  intro hhead
  exact h (List.mem_of_head? hhead)

theorem names_of_notMem {name : String} (h : '/' ∉ name.toList) (hne : name ≠ "") :
    names name = [name] := by
  rw [names, segments, Text.splitOn_of_notMem h]
  simp [hne]

/-- A path of slashes starts at the root. -/
theorem isAbsolute_of_names_nil {path : String} (h : names path = []) (hne : path ≠ "") :
    isAbsolute path = true := by
  rw [isAbsolute, beq_iff_eq]
  cases hchars : path.toList with
  | nil => exact absurd (String.toList_eq_nil_iff.1 hchars) hne
  | cons c cs =>
    by_contra hc
    rw [List.head?_cons, Option.some.injEq] at hc
    -- a path that starts with another character starts with a name
    obtain ⟨part, parts, hparts⟩ := List.exists_cons_of_ne_nil (Text.splitOn_ne_nil '/' cs)
    rw [names, segments, hchars, Text.splitOn, if_neg hc, hparts, Text.extendFirst, List.map_cons,
      List.filter_eq_nil_iff] at h
    exact h (String.ofList (c :: part)) List.mem_cons_self (by simp)

/-- A path that does not end with a slash ends with the last name that it goes through. -/
theorem getLast?_segments_of_names {path name : String} (h : (names path).getLast? = some name)
    (hslash : path.toList.getLast? ≠ some '/') : (segments path).getLast? = some name := by
  cases hlast : (segments path).getLast? with
  | none =>
    rw [List.getLast?_eq_none_iff] at hlast
    rw [names, hlast] at h
    cases h
  | some last =>
    obtain ⟨before, hsegments⟩ := List.getLast?_eq_some_iff.1 hlast
    obtain ⟨-, hpath | ⟨front, hpath⟩⟩ := getLast?_segments_eq_some_iff.1 hlast
    all_goals by_cases hempty : last = ""
    · subst hempty
      rw [String.toList_inj.1 hpath] at h
      cases h
    · rw [names, hsegments, List.filter_append, List.filter_singleton] at h
      simpa [hempty] using h
    · subst hempty
      rw [hpath] at hslash
      exact absurd List.getLast?_concat hslash
    · rw [names, hsegments, List.filter_append, List.filter_singleton] at h
      simpa [hempty] using h

/-- A path that a file system can be asked for. -/
structure IsValid (path : String) : Prop where
  free : '\x00' ∉ path.toList
  ne_empty : path ≠ ""
  short : path.utf8ByteSize ≤ FileTree.pathLimit

/-- The folder of a path can be asked for if the path can. -/
theorem IsValid.of_join {dir name : String} (h : IsValid (join dir name)) (hne : dir ≠ "")
    (hname : isAbsolute name = false) : IsValid dir := by
  obtain ⟨hfree, -, hshort⟩ := h
  have hdir : dir.toList.isEmpty = false := by simpa using hne
  rw [join, hname, hdir] at hfree hshort
  refine ⟨?_, hne, ?_⟩
  · intro hmem
    refine hfree ?_
    simp only [Bool.or_self, Bool.false_eq_true, if_false]
    split <;> simp [String.toList_append, hmem]
  · refine le_trans ?_ hshort
    simp only [Bool.or_self, Bool.false_eq_true, if_false]
    split <;> simp only [String.utf8ByteSize_append] <;> omega

end Path

namespace FileTree

open RecordStore.Path (names isAbsolute)

variable {t : FileTree}

/-! ## Where a path leads -/

/-- Where a path leads from the folder that its last name is in, and how it ends. -/
def arrive (folder : Place) (path : String) : Place × Ending :=
  match (names path).getLast? with
  | none => ([], .dots)
  | some last =>
    if last = "." then (folder, .dots)
    else if last = ".." then (folder.dropLast, .dots)
    else if path.toList.getLast? = some '/' then (folder ++ [last], .slash)
    else (folder ++ [last], .name)

/-- The folder that relative paths start from, or the root for a path that starts there. -/
def base (t : FileTree) (path : String) : Place := if isAbsolute path then [] else t.here

/-- A path that can be asked for leads on from the folder that its last name is in. -/
theorem locate_eq {path : String} (h : Path.IsValid path) :
    t.locate path = (t.walk (t.base path) (names path).dropLast).map (arrive · path) := by
  have hnul : path.toList.contains '\x00' = false := by simpa using h.free
  have hempty : path.toList.isEmpty = false := by simpa using h.ne_empty
  unfold locate
  rw [hnul, hempty, if_neg Bool.false_ne_true, if_neg Bool.false_ne_true,
    if_neg (Nat.not_lt.2 h.short)]
  dsimp only
  split
  · next fault hwalk =>
    have hwalk : t.walk (t.base path) (names path).dropLast = .error fault := hwalk
    rw [hwalk]
    rfl
  · next folder hwalk =>
    have hwalk : t.walk (t.base path) (names path).dropLast = .ok folder := hwalk
    rw [hwalk]
    show _ = Except.ok (arrive folder path)
    unfold arrive names
    cases ((Path.segments path).filter (· ≠ "")).getLast? with
    | none => rfl
    | some last =>
      dsimp only
      split_ifs <;> rfl

theorem isValid_of_locate {path : String} {found : Place × Ending} (h : t.locate path = .ok found) :
    Path.IsValid path := by
  unfold locate at h
  split at h
  · cases h
  next hnul =>
  split at h
  · cases h
  next hempty =>
  split at h
  · cases h
  next hlong =>
  exact ⟨by simpa using hnul, by simpa using hempty, Nat.not_lt.1 hlong⟩

/-- A path leads somewhere exactly if it can be asked for and the folders on its way exist. -/
theorem locate_eq_ok_iff {path : String} {found : Place × Ending} :
    t.locate path = .ok found ↔
      Path.IsValid path ∧ ∃ folder, t.walk (t.base path) (names path).dropLast = .ok folder ∧
        arrive folder path = found := by
  constructor
  · intro h
    have hvalid := isValid_of_locate h
    rw [locate_eq hvalid] at h
    exact ⟨hvalid, map_eq_ok_iff.1 h⟩
  · rintro ⟨hvalid, h⟩
    rw [locate_eq hvalid]
    exact map_eq_ok_iff.2 h

/-- A place that a path leads to by name has the name that the path ends with. -/
theorem exists_name_of_locate {path : String} {place : Place}
    (h : t.locate path = .ok (place, .name)) :
    ∃ folder name, place = folder ++ [name] ∧ (Path.segments path).getLast? = some name ∧
      Path.isFiller name = false ∧ name ≠ ".." := by
  obtain ⟨-, folder, -, harrive⟩ := locate_eq_ok_iff.1 h
  unfold arrive at harrive
  split at harrive
  · cases harrive
  next name hname =>
  have hne : name ≠ "" := by
    have hmem := List.mem_of_getLast? hname
    simpa using (List.mem_filter.1 hmem).2
  split_ifs at harrive with hdot hup hslash
  all_goals cases harrive
  exact ⟨folder, name, rfl, Path.getLast?_segments_of_names hname hslash,
    by simp [Path.isFiller, hne, hdot], hup⟩

/-! ## Places below a folder -/

/-- The folder that a path leads into: where the names would be if they were joined to it. -/
def enter (t : FileTree) (path : String) : Except Fault Place := t.walk (t.base path) (names path)

theorem walk_append (place : Place) (before after : List String) :
    t.walk place (before ++ after) = t.walk place before >>= (t.walk · after) := by
  induction before generalizing place with
  | nil => rfl
  | cons segment before ih =>
    rw [List.cons_append, walk, walk]
    split
    · exact ih place
    · split
      · exact ih _
      · split
        · rfl
        · split
          · rfl
          · rfl
          · exact ih _

/-- A path leads to a folder that can be looked up exactly if it leads into it. -/
theorem enter_eq_ok_iff {path : String} {place : Place} (hvalid : Path.IsValid path)
    (hfolder : t.lookUp place = .ok (some .folder)) :
    t.enter path = .ok place ↔ ∃ ending, t.locate path = .ok (place, ending) := by
  obtain ⟨hshort, hfind⟩ := lookUp_eq_ok_iff.1 hfolder
  simp only [locate_eq_ok_iff, hvalid, true_and, enter]
  rcases List.eq_nil_or_concat (names path) with hnames | ⟨before, last, hnames⟩
  · have hbase : t.base path = [] := by
      rw [base, if_pos (Path.isAbsolute_of_names_nil hnames hvalid.ne_empty)]
    simp [hnames, hbase, walk, arrive, eq_comm]
  · rw [List.concat_eq_append] at hnames
    rw [hnames, List.dropLast_concat, walk_append, bind_eq_ok_iff]
    -- the last step goes into a folder, unless it is one that the dots ask for
    have hstep : ∀ folder, t.walk folder [last] = .ok place ↔
        ∃ ending, arrive folder path = (place, ending) := by
      intro folder
      rw [arrive, hnames, List.getLast?_concat, walk]
      dsimp only
      by_cases hdot : last = "."
      · rw [if_pos hdot, if_pos hdot]
        simp [walk]
      by_cases hup : last = ".."
      · rw [if_neg hdot, if_neg hdot, if_pos hup, if_pos hup]
        simp [walk]
      rw [if_neg hdot, if_neg hdot, if_neg hup, if_neg hup]
      constructor
      · intro hwalk
        split at hwalk
        · cases hwalk
        split at hwalk
        · cases hwalk
        · cases hwalk
        cases hwalk
        split <;> exact ⟨_, rfl⟩
      · rintro ⟨ending, harrive⟩
        have hplace : folder ++ [last] = place := by
          split at harrive <;> cases harrive <;> rfl
        subst hplace
        have hlong : ¬nameLimit < last.utf8ByteSize := by simpa using hshort
        rw [if_neg hlong, hfind]
        rfl
    simp only [hstep]
    constructor
    · rintro ⟨folder, hwalk, ending, harrive⟩
      exact ⟨ending, folder, hwalk, harrive⟩
    · rintro ⟨ending, folder, hwalk, harrive⟩
      exact ⟨folder, hwalk, ending, harrive⟩

/-- A name that is joined to a folder leads to this name in it. -/
theorem locate_join {dir name : String} (hslash : '/' ∉ name.toList)
    (hname : Path.isFiller name = false) (hup : name ≠ "..")
    (hvalid : Path.IsValid (Path.join dir name)) :
    t.locate (Path.join dir name) = (t.enter dir).map fun folder => (folder ++ [name], .name) := by
  obtain ⟨hempty, hdot⟩ : name ≠ "" ∧ name ≠ "." := by simpa [Path.isFiller] using hname
  have habsolute := Path.isAbsolute_of_notMem hslash
  have hnames : names (Path.join dir name) = names dir ++ [name] := by
    rw [Path.names_join habsolute, Path.names_of_notMem hslash hempty]
  have hlast : (Path.join dir name).toList.getLast? ≠ some '/' := by
    have hne : name.toList ≠ [] := by simpa using hempty
    have hend : (Path.join dir name).toList.getLast? = name.toList.getLast? := by
      obtain ⟨heq, -⟩ | ⟨before, heq, -⟩ := Path.join_cases dir name
      · rw [heq]
      · rw [heq, ← List.singleton_append, ← List.append_assoc, List.getLast?_append_of_ne_nil _ hne]
    rw [hend]
    exact fun hmem => hslash (List.mem_of_getLast? hmem)
  have harrive : (arrive · (Path.join dir name)) = fun folder => (folder ++ [name], .name) := by
    funext folder
    rw [arrive, hnames, List.getLast?_concat]
    dsimp only
    rw [if_neg hdot, if_neg hup, if_neg hlast]
  rw [locate_eq hvalid, harrive, base, Path.isAbsolute_join habsolute, hnames,
    List.dropLast_concat]
  rfl

theorem exists_of_locate_join {dir name : String} (hslash : '/' ∉ name.toList)
    (hname : Path.isFiller name = false) (hup : name ≠ "..") {found : Place × Ending}
    (h : t.locate (Path.join dir name) = .ok found) :
    ∃ folder, t.enter dir = .ok folder ∧ found = (folder ++ [name], .name) := by
  rw [locate_join hslash hname hup (isValid_of_locate h)] at h
  obtain ⟨folder, henter, rfl⟩ := map_eq_ok_iff.1 h
  exact ⟨folder, henter, rfl⟩

end FileTree

end RecordStore

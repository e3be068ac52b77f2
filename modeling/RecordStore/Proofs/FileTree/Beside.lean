import RecordStore.Proofs.FileTree.Names

/-!
# The path of a file beside another one

A path that ends with a name stays in the same folder when the name is replaced: what is left of it
without the name leads into the folder that the name is in, although it is another text, from which
dots and doubled slashes at the end are gone.

- `Path.intercalate_segments`, `Path.segments_intercalate`: a path is made up of its segments;
- `Path.parent?_of_name`, `Path.parent?_of_fillers`: the path without its last name;
- `FileTree.locate_of_notMem`: where a path leads that is a single name;
- `FileTree.enter_parent`: the path without its last name leads into the folder of the file;
- `FileTree.locate_withFileName`: the path with another name leads to that name in the same folder.
-/

namespace RecordStore

namespace Path

/-! ## The path without its last name -/

/-- The segments of a path have no slashes. -/
theorem notMem_of_mem_segments {path segment : String} (h : segment ∈ segments path) :
    '/' ∉ segment.toList := by
  obtain ⟨part, hpart, rfl⟩ := List.mem_map.1 h
  obtain ⟨first, others, hsplit⟩ :=
    List.exists_cons_of_ne_nil (Text.splitOn_ne_nil '/' path.toList)
  obtain ⟨-, hfirst, hothers⟩ := Text.splitOn_eq_cons_iff.1 hsplit
  rw [hsplit] at hpart
  rw [String.toList_ofList]
  rcases List.mem_cons.1 hpart with rfl | hpart
  · exact hfirst
  · exact hothers part hpart

/-- Texts without slashes are the segments of the path that they are put together to. -/
theorem segments_intercalate {parts : List String} (hne : parts ≠ [])
    (h : ∀ p ∈ parts, '/' ∉ p.toList) : segments ("/".intercalate parts) = parts := by
  have hsplit : Text.splitOn '/' ("/".intercalate parts).toList = parts.map String.toList := by
    rw [String.toList_intercalate, ← Text.join_eq_intercalate]
    exact Text.splitOn_join (mt List.map_eq_nil_iff.1 hne) (List.forall_mem_map.2 h)
  rw [segments, hsplit, List.map_map]
  exact List.map_id'' (fun _ => String.ofList_toList) _

/-- A path is put together from its segments. -/
theorem intercalate_segments (path : String) : "/".intercalate (segments path) = path := by
  have hparts : (segments path).map String.toList = Text.splitOn '/' path.toList := by
    rw [segments, List.map_map]
    exact List.map_id'' (fun _ => String.toList_ofList) _
  rw [← String.toList_inj, String.toList_intercalate, hparts, ← Text.join_eq_intercalate]
  exact Text.join_splitOn '/' path.toList

/-- Either no segment counts, or there is a last one that does. -/
theorem fillers_or_name (before : List String) : (∀ s ∈ before, isFiller s = true) ∨
    ∃ front name fillers, before = front ++ name :: fillers ∧ isFiller name = false ∧
      ∀ s ∈ fillers, isFiller s = true := by
  induction before with
  | nil => exact .inl (List.forall_mem_nil _)
  | cons s before ih =>
    rcases ih with hfillers | ⟨front, name, fillers, rfl, hname, hfillers⟩
    · cases hs : isFiller s with
      | true => exact .inl (List.forall_mem_cons.2 ⟨hs, hfillers⟩)
      | false => exact .inr ⟨[], s, before, rfl, hs, hfillers⟩
    · exact .inr ⟨s :: front, name, fillers, rfl, hname, hfillers⟩

variable {path last : String} {front fillers : List String}

theorem parent?_of_fillers (hsegments : segments path = fillers ++ [last])
    (hfillers : ∀ s ∈ fillers, isFiller s = true) (hlast : isFiller last = false) :
    parent? path = some (if isAbsolute path then "/"
      else if (segments path).head? = some "." then "." else "") := by
  have hdrop : fillers.reverse.dropWhile isFiller = [] :=
    List.dropWhile_eq_nil_iff.2 fun s hs => hfillers s (List.mem_reverse.1 hs)
  have hend : (segments path).reverse.dropWhile isFiller = last :: fillers.reverse := by
    rw [hsegments, List.reverse_append, List.reverse_singleton, List.singleton_append,
      List.dropWhile_cons_of_neg (by rw [hlast]; simp)]
  simp only [parent?, hend, hdrop, beq_iff_eq]
  split_ifs <;> rfl

theorem parent?_of_name {name : String}
    (hsegments : segments path = front ++ name :: (fillers ++ [last]))
    (hname : isFiller name = false) (hfillers : ∀ s ∈ fillers, isFiller s = true)
    (hlast : isFiller last = false) : parent? path = some ("/".intercalate (front ++ [name])) := by
  have hdrop : (fillers.reverse ++ name :: front.reverse).dropWhile isFiller =
      name :: front.reverse := by
    rw [List.dropWhile_append_of_pos fun s hs => hfillers s (List.mem_reverse.1 hs),
      List.dropWhile_cons_of_neg (by rw [hname]; simp)]
  have hend : (segments path).reverse.dropWhile isFiller =
      last :: (fillers.reverse ++ name :: front.reverse) := by
    rw [hsegments]
    simp [hlast]
  simp only [parent?, hend, hdrop]
  simp

theorem eq_intercalate_append {name : String} {more : List String}
    (hsegments : segments path = front ++ name :: more) (hmore : more ≠ []) :
    path = "/".intercalate (front ++ [name]) ++ "/" ++ "/".intercalate more := by
  rw [← String.intercalate_append_of_ne_nil (by simp) hmore, List.append_assoc,
    List.singleton_append, ← hsegments, intercalate_segments]

/-- The path up to one of its names starts where the whole path does. -/
theorem isAbsolute_intercalate {name : String} {more : List String}
    (hsegments : segments path = front ++ name :: more) (hmore : more ≠ []) (hname : name ≠ "") :
    isAbsolute ("/".intercalate (front ++ [name])) = isAbsolute path := by
  have hne : ("/".intercalate (front ++ [name])).toList ≠ [] := by
    rcases eq_or_ne front [] with rfl | hfront
    · simpa using hname
    · rw [String.intercalate_append_of_ne_nil hfront (by simp)]
      simp
  conv_rhs => rw [isAbsolute, eq_intercalate_append hsegments hmore, String.toList_append,
    String.toList_append, List.append_assoc, List.head?_append_of_ne_nil _ hne]
  rfl

/-- The path without its last name has no other characters, but for slashes and dots. -/
theorem notMem_parent {before : List String} {c : Char}
    (hsegments : segments path = before ++ [last]) (hlast : isFiller last = false)
    (hc : c ∉ ['/', '.']) (hpath : c ∉ path.toList) : c ∉ ((parent? path).getD "").toList := by
  rcases fillers_or_name before with hfillers | ⟨front, name, fillers, rfl, hname, hfillers⟩
  · rw [parent?_of_fillers hsegments hfillers hlast, Option.getD_some]
    simp only [List.mem_cons, List.not_mem_nil, or_false, not_or] at hc
    split_ifs
    · simpa using hc.1
    · simpa using hc.2
    · simp
  · rw [List.append_assoc, List.cons_append] at hsegments
    rw [parent?_of_name hsegments hname hfillers hlast, Option.getD_some]
    rw [eq_intercalate_append hsegments (by simp), String.toList_append, String.toList_append,
      List.append_assoc] at hpath
    exact fun hmem => hpath (List.mem_append_left _ hmem)

/-- A text of three bytes or more is a name. -/
theorem isFiller_of_size {name : String} (h : 2 < name.utf8ByteSize) :
    isFiller name = false ∧ name ≠ ".." := by
  have hne {text : String} (htext : text.utf8ByteSize ≤ 2) : name ≠ text := by
    rintro rfl
    omega
  have hempty : name ≠ "" := hne (by decide)
  have hdot : name ≠ "." := hne (by decide)
  exact ⟨by simp [isFiller, hempty, hdot], hne (by decide)⟩

/-- A path that is a single name is another name beside it. -/
theorem withFileName_of_notMem (hslash : '/' ∉ path.toList) (hpath : isFiller path = false)
    (hup : path ≠ "..") (name : String) : withFileName path name = name := by
  have hsegments : segments path = [path] := by
    rw [segments, Text.splitOn_of_notMem hslash, List.map_singleton, String.ofList_toList]
  have hfile : fileName? path = some path :=
    fileName?_of_getLast? (getLast?_segments_of_notMem hslash) hpath hup
  have hdot : path ≠ "." := by
    rintro rfl
    cases hpath
  have hnone : ∀ s ∈ ([] : List String), isFiller s = true := List.forall_mem_nil _
  have hparent : parent? path = some "" := by
    rw [parent?_of_fillers hsegments hnone hpath, isAbsolute_of_notMem hslash, hsegments]
    simp [hdot]
  rw [withFileName, hfile, hparent]
  simp [join]

theorem notMem_join {dir name : String} {c : Char} (hc : c ≠ '/') (hdir : c ∉ dir.toList)
    (hname : c ∉ name.toList) : c ∉ (join dir name).toList := by
  unfold join
  split_ifs <;> simp [hc, hdir, hname]

end Path

namespace FileTree

open RecordStore.Path (names isAbsolute)

variable {t : FileTree} {path last : String} {folder : Place}

theorem walk_dots {segments : List String} (h : ∀ s ∈ segments, s = ".") (place : Place) :
    t.walk place segments = .ok place := by
  induction segments with
  | nil => rfl
  | cons s segments ih =>
    obtain ⟨hs, hsegments⟩ := List.forall_mem_cons.1 h
    rw [walk, if_pos hs, ih hsegments]

/-- A path leads to a name over the segments before it. -/
theorem exists_walk_of_locate (h : t.locate path = .ok (folder ++ [last], .name)) :
    ∃ before, Path.segments path = before ++ [last] ∧ Path.isFiller last = false ∧ last ≠ ".." ∧
      t.walk (t.base path) (before.filter (· ≠ "")) = .ok folder := by
  obtain ⟨folder', last', hplace, hsegments, hlast, hup⟩ := exists_name_of_locate h
  obtain ⟨rfl, hlasts⟩ := List.append_inj' hplace rfl
  obtain rfl : last = last' := by simpa using hlasts
  obtain ⟨before, hsegments⟩ := List.getLast?_eq_some_iff.1 hsegments
  obtain ⟨hempty, -⟩ : last ≠ "" ∧ last ≠ "." := by simpa [Path.isFiller] using hlast
  have hnames : names path = before.filter (· ≠ "") ++ [last] := by
    rw [names, hsegments, List.filter_append]
    simp [hempty]
  obtain ⟨-, mid, hwalk, harrive⟩ := locate_eq_ok_iff.1 h
  rw [hnames, List.dropLast_concat] at hwalk
  have hmid : mid = folder := by
    rw [arrive, hnames, List.getLast?_concat] at harrive
    dsimp only at harrive
    split_ifs at harrive
    all_goals simp at harrive
    exact harrive
  exact ⟨before, hsegments, hlast, hup, hmid ▸ hwalk⟩

/-- A path that is a single name leads to this name in the folder that relative paths start from. -/
theorem locate_of_notMem {name : String} (hslash : '/' ∉ name.toList) (hnul : '\x00' ∉ name.toList)
    (hname : Path.isFiller name = false) (hup : name ≠ "..")
    (hshort : name.utf8ByteSize ≤ pathLimit) : t.locate name = .ok (t.here ++ [name], .name) := by
  have hjoin : Path.join "" name = name := by simp [Path.join]
  have hvalid : Path.IsValid (Path.join "" name) := by
    rw [hjoin]
    refine ⟨hnul, ?_, hshort⟩
    rintro rfl
    cases hname
  have hlocate := locate_join (t := t) hslash hname hup hvalid
  rwa [hjoin] at hlocate

/-- The path without its last name leads into the folder that the name is in. -/
theorem enter_parent (h : t.locate path = .ok (folder ++ [last], .name)) :
    t.enter ((Path.parent? path).getD "") = .ok folder := by
  obtain ⟨before, hsegments, hlast, -, hwalk⟩ := exists_walk_of_locate h
  have hdots {fillers : List String} (hfillers : ∀ s ∈ fillers, Path.isFiller s = true) :
      ∀ s ∈ fillers.filter (· ≠ ""), s = "." := by
    intro s hs
    obtain ⟨hmem, hne⟩ := List.mem_filter.1 hs
    have hs := hfillers s hmem
    simp only [Path.isFiller, Bool.or_eq_true, beq_iff_eq] at hs
    exact hs.resolve_left (by simpa using hne)
  rcases Path.fillers_or_name before with hfillers | ⟨front, name, fillers, rfl, hname, hfillers⟩
  -- no folder is named on the way: the name is in the folder that the path starts from
  · rw [walk_dots (hdots hfillers)] at hwalk
    cases hwalk
    rw [Path.parent?_of_fillers hsegments hfillers hlast, Option.getD_some, base]
    split_ifs <;> rfl
  · rw [List.append_assoc, List.cons_append] at hsegments
    have hempty : name ≠ "" := by
      rintro rfl
      cases hname
    have hparts : ∀ p ∈ front ++ [name], '/' ∉ p.toList := by
      intro p hp
      have hmem : p ∈ Path.segments path := by
        rw [hsegments, ← List.singleton_append, ← List.append_assoc]
        exact List.mem_append_left _ hp
      exact Path.notMem_of_mem_segments hmem
    have hnames :
        names ("/".intercalate (front ++ [name])) = (front ++ [name]).filter (· ≠ "") := by
      rw [names, Path.segments_intercalate (by simp) hparts]
    have hbase : t.base ("/".intercalate (front ++ [name])) = t.base path := by
      rw [base, base, Path.isAbsolute_intercalate hsegments (by simp) hempty]
    rw [← List.singleton_append, ← List.append_assoc, List.filter_append, walk_append] at hwalk
    obtain ⟨mid, hmid, hfolder⟩ := bind_eq_ok_iff.1 hwalk
    rw [walk_dots (hdots hfillers)] at hfolder
    cases hfolder
    rw [Path.parent?_of_name hsegments hname hfillers hlast, Option.getD_some, enter, hnames, hbase,
      hmid]

/-- The path with another name leads to that name in the same folder, if it is not too long. -/
theorem locate_withFileName {name : String} (h : t.locate path = .ok (folder ++ [last], .name))
    (hslash : '/' ∉ name.toList) (hnul : '\x00' ∉ name.toList)
    (hname : Path.isFiller name = false) (hup : name ≠ "..")
    (hshort : (Path.withFileName path name).utf8ByteSize ≤ pathLimit) :
    t.locate (Path.withFileName path name) = .ok (folder ++ [name], .name) := by
  obtain ⟨before, hsegments, hlast, hup', -⟩ := exists_walk_of_locate h
  have hfile : Path.fileName? path = some last :=
    Path.fileName?_of_getLast? (by rw [hsegments, List.getLast?_concat]) hlast hup'
  have hjoin : Path.withFileName path name = Path.join ((Path.parent? path).getD "") name := by
    rw [Path.withFileName, hfile]
  rw [hjoin] at hshort ⊢
  have hvalid : Path.IsValid (Path.join ((Path.parent? path).getD "") name) := by
    refine ⟨?_, ?_, hshort⟩
    · exact Path.notMem_join (by decide) (Path.notMem_parent hsegments hlast (by decide)
        (isValid_of_locate h).free) hnul
    · intro hempty
      have hend := Path.getLast?_segments_join ((Path.parent? path).getD "") name
      rw [hempty, Path.getLast?_segments_of_notMem hslash] at hend
      cases hend
      cases hname
  rw [locate_join hslash hname hup hvalid, enter_parent h]
  rfl

end FileTree

end RecordStore

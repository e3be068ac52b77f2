import RecordStore.FileTree
import RecordStore.Proofs.Sequence

/-!
# What file operations leave alone

A change to a file keeps every folder, so every path leads where it led before. This is all that a
sequence of operations on two files in one folder needs.

- `FileTree.KeepsFolders`: nothing is in the way that was not there before
  (`locate_of_keepsFolders`);
- `FileTree.LeadsTo`: a path leads to a place where a file stands or can be put, and
  `FileTree.HasFile`: one stands there;
- `locateFile_eq_ok_iff`, `overwrite_eq_ok_iff`, `append_eq_ok_iff`, `rename_eq_ok_iff`: when an
  operation succeeds, and the tree it leaves;
- `LeadsTo.put`, `LeadsTo.erase`: the path still leads there when files change;
- `erase_put_self`, `put_erase_put`: changes at one or two places, one after the other.
-/

namespace RecordStore.FileTree

/-! ## Folders that stay -/

/-- Relative paths start from the same folder, and no folder is gone. -/
def KeepsFolders (t u : FileTree) : Prop :=
  u.here = t.here ∧ ∀ p, t.find? p = some .folder → u.find? p = some .folder

theorem keepsFolders_put {t : FileTree} {p : Place} (h : t.find? p ≠ some .folder) (n : Node) :
    KeepsFolders t (t.put p n) := by
  refine ⟨rfl, ?_⟩
  intro q hq
  have hne : q ≠ p := by
    rintro rfl
    exact h hq
  rw [find?_put_of_ne t n hne, hq]

theorem keepsFolders_erase {t : FileTree} {p : Place} (h : t.find? p ≠ some .folder) :
    KeepsFolders t (t.erase p) := by
  refine ⟨rfl, ?_⟩
  intro q hq
  have hne : q ≠ p := by
    rintro rfl
    exact h hq
  rw [find?_erase_of_ne t hne, hq]

theorem walk_of_keepsFolders {t u : FileTree} (h : KeepsFolders t u) {base place : Place}
    {segments : List String} (hwalk : t.walk base segments = .ok place) :
    u.walk base segments = .ok place := by
  induction segments generalizing base with
  | nil => exact hwalk
  | cons segment segments ih =>
    -- only a step into a folder looks at the tree
    rw [walk] at hwalk ⊢
    split at hwalk
    · next hdot => rw [if_pos hdot, ih hwalk]
    · next hdot =>
      rw [if_neg hdot]
      split at hwalk
      · next hup => rw [if_pos hup, ih hwalk]
      · next hup =>
        rw [if_neg hup]
        split at hwalk
        · cases hwalk
        · next hshort =>
          rw [if_neg hshort]
          split at hwalk
          · cases hwalk
          · cases hwalk
          · next hfolder =>
            rw [h.2 _ hfolder]
            exact ih hwalk

/-- A path that leads somewhere still leads there. -/
theorem locate_of_keepsFolders {t u : FileTree} (h : KeepsFolders t u) {path : String}
    {found : Place × Ending} (hlocate : t.locate path = .ok found) : u.locate path = .ok found := by
  unfold locate at hlocate ⊢
  split at hlocate
  · cases hlocate
  · next hnul =>
    rw [if_neg hnul]
    split at hlocate
    · cases hlocate
    · next hempty =>
      rw [if_neg hempty]
      split at hlocate
      · cases hlocate
      · next hshort =>
        rw [if_neg hshort]
        dsimp only at hlocate ⊢
        split at hlocate
        · cases hlocate
        · next parent hparent =>
          rw [h.1, walk_of_keepsFolders h hparent]
          exact hlocate

/-! ## Changes one after the other -/

/-- What was put at a place is gone once the place is cleared. -/
theorem erase_put_self (t : FileTree) (p : Place) (n : Node) : (t.put p n).erase p = t.erase p := by
  simp [put, erase]

/-- Clearing one place and putting a node at another is the same once as it is twice. -/
theorem put_erase_put (t : FileTree) (p q : Place) (n : Node) :
    (((t.erase p).put q n).erase p).put q n = (t.erase p).put q n := by
  by_cases h : q = p
  · simp [put, erase, h]
  · have hnodes : (((t.erase p).put q n).erase p).put q n =
        { t with nodes := (q, n) :: t.nodes.filter fun a =>
          a.1 != q && (a.1 != p && (a.1 != q && a.1 != p)) } := by
      simp [put, erase, h]
    rw [hnodes, put, erase, List.filter_filter]
    refine congrArg (fun nodes => FileTree.mk ((q, n) :: nodes) t.here) ?_
    refine List.filter_congr fun a _ => ?_
    cases a.1 != q <;> cases a.1 != p <;> rfl

/-! ## Places for files -/

/-- A path leads to a place where a file stands or can be put. -/
structure LeadsTo (t : FileTree) (path : String) (place : Place) : Prop where
  located : t.locate path = .ok (place, .name)
  short : place.getLast?.any (nameLimit < ·.utf8ByteSize) = false
  notFolder : t.find? place ≠ some .folder

namespace LeadsTo

variable {t : FileTree} {path other : String} {place place' : Place}

theorem ne_nil (h : LeadsTo t path place) : place ≠ [] := by
  rintro rfl
  exact h.notFolder rfl

theorem lookUp (h : LeadsTo t path place) : t.lookUp place = .ok (t.find? place) := by
  rw [FileTree.lookUp, h.short]
  rfl

/-- A path leads to one place. -/
theorem unique (h : LeadsTo t path place) (h' : LeadsTo t path place') : place = place' := by
  have heq := h.located.symm.trans h'.located
  cases heq
  rfl

/-- A path still leads to a place where no folder was made. -/
theorem of_keepsFolders {u : FileTree} (h : LeadsTo t path place) (hkeeps : KeepsFolders t u)
    (hfree : u.find? place ≠ some .folder) : LeadsTo u path place :=
  ⟨locate_of_keepsFolders hkeeps h.located, h.short, hfree⟩

/-- Writing a file does not turn a path away. -/
theorem put (h : LeadsTo t path place) (h' : LeadsTo t other place') (content : ByteArray) :
    LeadsTo (t.put place' (.file content)) path place := by
  refine h.of_keepsFolders (keepsFolders_put h'.notFolder _) ?_
  -- the file may have been written to this very place
  by_cases heq : place = place'
  · rw [heq, find?_put_self _ _ h'.ne_nil]
    simp
  · rw [find?_put_of_ne _ _ heq]
    exact h.notFolder

/-- Deleting a file does not turn a path away. -/
theorem erase (h : LeadsTo t path place) (h' : LeadsTo t other place') :
    LeadsTo (t.erase place') path place := by
  refine h.of_keepsFolders (keepsFolders_erase h'.notFolder) ?_
  by_cases heq : place = place'
  · rw [heq, find?_erase_self _ h'.ne_nil]
    simp
  · rw [find?_erase_of_ne _ heq]
    exact h.notFolder

end LeadsTo

/-! ## When operations succeed -/

theorem lookUp_eq_ok_iff {t : FileTree} {place : Place} {node : Option Node} :
    t.lookUp place = .ok node ↔
      place.getLast?.any (nameLimit < ·.utf8ByteSize) = false ∧ t.find? place = node := by
  unfold lookUp
  split
  · next h => simp [h]
  · next h => simp [h]

/-- A path leads to a file exactly if it leads to a place where one stands. -/
theorem locateFile_eq_ok_iff {t : FileTree} {path : String} {place : Place} {content : ByteArray} :
    t.locateFile path = .ok (place, content) ↔
      LeadsTo t path place ∧ t.find? place = some (.file content) := by
  constructor
  · intro h
    obtain ⟨⟨p, ending⟩, hlocate, h⟩ := bind_eq_ok_iff.1 h
    obtain ⟨node, hlookUp, h⟩ := bind_eq_ok_iff.1 h
    obtain ⟨hshort, hfind⟩ := lookUp_eq_ok_iff.1 hlookUp
    split at h
    · cases h
    · cases h
    · split at h
      · next hname =>
        cases h
        subst hname
        exact ⟨⟨hlocate, hshort, by simp [hfind]⟩, hfind⟩
      · cases h
  · rintro ⟨h, hfind⟩
    refine bind_eq_ok_iff.2 ⟨_, h.located, bind_eq_ok_iff.2 ⟨_, h.lookUp, ?_⟩⟩
    rw [hfind]
    rfl

theorem read_eq_ok_iff {t : FileTree} {path : String} {content : ByteArray} :
    t.read path = .ok content ↔
      ∃ place, LeadsTo t path place ∧ t.find? place = some (.file content) := by
  unfold read
  constructor
  · intro h
    cases hfile : t.locateFile path with
    | error fault =>
      rw [hfile] at h
      cases h
    | ok found =>
      rw [hfile] at h
      cases h
      exact ⟨found.1, locateFile_eq_ok_iff.1 hfile⟩
  · rintro ⟨place, h⟩
    rw [locateFile_eq_ok_iff.2 h]
    rfl

/-- A path leads to a place where a file stands. -/
def HasFile (t : FileTree) (path : String) (place : Place) : Prop :=
  t.LeadsTo path place ∧ ∃ content, t.find? place = some (.file content)

theorem HasFile.of_kept {t u : FileTree} {path : String} {place : Place} (h : t.HasFile path place)
    (hkeeps : KeepsFolders t u) (hkept : ∀ n, t.find? place = some n → u.find? place = some n) :
    u.HasFile path place := by
  obtain ⟨hplace, content, hfile⟩ := h
  have hfile' := hkept _ hfile
  exact ⟨hplace.of_keepsFolders hkeeps (by simp [hfile']), content, hfile'⟩

/-- A file that is there can be deleted. -/
theorem HasFile.remove {t : FileTree} {path : String} {place : Place} (h : t.HasFile path place) :
    t.remove path = .ok (t.erase place) := by
  obtain ⟨hplace, content, hfile⟩ := h
  exact bind_eq_ok_iff.2 ⟨_, locateFile_eq_ok_iff.2 ⟨hplace, hfile⟩, rfl⟩

theorem isFile_iff {t : FileTree} {path : String} :
    t.isFile path = true ↔ ∃ place, t.HasFile path place := by
  unfold isFile
  constructor
  · intro h
    split at h
    · next found hfound =>
      obtain ⟨hplace, hfile⟩ := locateFile_eq_ok_iff.1 hfound
      exact ⟨found.1, hplace, found.2, hfile⟩
    · cases h
  · rintro ⟨place, hplace, content, hfile⟩
    rw [locateFile_eq_ok_iff.2 ⟨hplace, hfile⟩]

/-- A file can be written exactly where a path leads to a place for one. -/
theorem overwrite_eq_ok_iff {t u : FileTree} {path : String} {content : ByteArray} :
    t.overwrite path content = .ok u ↔
      ∃ place, LeadsTo t path place ∧ u = t.put place (.file content) := by
  constructor
  · intro h
    obtain ⟨⟨place, ending⟩, hlocate, h⟩ := bind_eq_ok_iff.1 h
    dsimp only at h
    split at h
    · cases h
    · next hending =>
      obtain ⟨node, hlookUp, h⟩ := bind_eq_ok_iff.1 h
      obtain ⟨hshort, rfl⟩ := lookUp_eq_ok_iff.1 hlookUp
      split at h
      · cases h
      · next hfolder =>
        cases h
        rw [Decidable.not_not] at hending
        subst hending
        exact ⟨place, ⟨hlocate, hshort, hfolder⟩, rfl⟩
  · rintro ⟨place, h, rfl⟩
    refine bind_eq_ok_iff.2 ⟨_, h.located, ?_⟩
    dsimp only
    rw [if_neg (by simp)]
    refine bind_eq_ok_iff.2 ⟨_, h.lookUp, ?_⟩
    rw [if_neg h.notFolder]

theorem append_eq_ok_iff {t u : FileTree} {path : String} {more : ByteArray} :
    t.append path more = .ok u ↔
      ∃ place content, LeadsTo t path place ∧ t.find? place = some (.file content) ∧
        u = t.put place (.file (content ++ more)) := by
  constructor
  · intro h
    obtain ⟨⟨place, content⟩, hfile, h⟩ := bind_eq_ok_iff.1 h
    obtain ⟨hleads, hfind⟩ := locateFile_eq_ok_iff.1 hfile
    cases h
    exact ⟨place, content, hleads, hfind, rfl⟩
  · rintro ⟨place, content, hleads, hfind, rfl⟩
    exact bind_eq_ok_iff.2 ⟨_, locateFile_eq_ok_iff.2 ⟨hleads, hfind⟩, rfl⟩

/-- A file can be moved to a place for one; what stood there is gone, and so is the old file. -/
theorem rename_eq_ok_iff {t u : FileTree} {source target : String} :
    t.rename source target = .ok u ↔
      ∃ old new content, LeadsTo t source old ∧ t.find? old = some (.file content) ∧
        LeadsTo t target new ∧ u = (t.erase old).put new (.file content) := by
  constructor
  · intro h
    obtain ⟨⟨old, content⟩, hfile, h⟩ := bind_eq_ok_iff.1 h
    obtain ⟨hold, hfind⟩ := locateFile_eq_ok_iff.1 hfile
    obtain ⟨⟨new, ending⟩, hlocate, h⟩ := bind_eq_ok_iff.1 h
    obtain ⟨node, hlookUp, h⟩ := bind_eq_ok_iff.1 h
    obtain ⟨hshort, rfl⟩ := lookUp_eq_ok_iff.1 hlookUp
    split at h
    · cases h
    · next hending =>
      split at h
      · cases h
      · next hfolder =>
        cases h
        -- a new path that ends with a slash or with dots names a folder
        rw [Decidable.not_not] at hending
        subst hending
        exact ⟨old, new, content, hold, hfind, ⟨hlocate, hshort, hfolder⟩, rfl⟩
  · rintro ⟨old, new, content, hold, hfind, hnew, rfl⟩
    refine bind_eq_ok_iff.2 ⟨_, locateFile_eq_ok_iff.2 ⟨hold, hfind⟩, ?_⟩
    refine bind_eq_ok_iff.2 ⟨_, hnew.located, bind_eq_ok_iff.2 ⟨_, hnew.lookUp, ?_⟩⟩
    rw [if_neg (by simp), if_neg hnew.notFolder]

end RecordStore.FileTree

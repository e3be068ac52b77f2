import RecordStore.Proofs.FileTree.Names

/-!
# Folders

A folder is listed by the names of the nodes that stand in it, and making a folder makes at most the
folders above it that are missing.

- `IsTree`: every node stands in a folder; `IsTree.put`: it stays so;
- `HasFolder`: a path leads to a folder; `list_eq_ok_iff`, `mem_filterMap_nameBelow?_iff`: the names
  in it;
- `Grows`, `MadeFolders`: what making a folder can change, whether it succeeds or fails
  (`grows_makeFolders`, `Grows.madeFolders`), and nothing if it exists (`makeFolders_of_isFolder`).
-/

namespace RecordStore.FileTree

variable {t u : FileTree} {path : String} {place : Place}

/-! ## Trees -/

/-- Every node stands in a folder under a name that is not too long, and the folder that relative
paths start from exists. -/
structure IsTree (t : FileTree) : Prop where
  here_folder : t.find? t.here = some .folder
  parent_folder : ∀ p n, t.find? p = some n → t.find? p.dropLast = some .folder
  short : ∀ p n, t.find? p = some n → p.getLast?.any (nameLimit < ·.utf8ByteSize) = false

/-- The root alone is a tree. -/
theorem isTree_empty : IsTree ⟨[], []⟩ := by
  have hroot : ∀ p n, find? ⟨[], []⟩ p = some n → p = [] := by
    intro p n hp
    cases p with
    | nil => rfl
    | cons name p => cases hp
  refine ⟨rfl, ?_, ?_⟩
  · intro p n hp
    rw [hroot p n hp]
    rfl
  · intro p n hp
    rw [hroot p n hp]
    rfl

namespace IsTree

/-- A node may be put into a folder, where no folder stands yet. -/
theorem put (h : t.IsTree) (hparent : t.find? place.dropLast = some .folder)
    (hshort : place.getLast?.any (nameLimit < ·.utf8ByteSize) = false)
    (hfree : t.find? place ≠ some .folder) (n : Node) : (t.put place n).IsTree := by
  have hne : place ≠ [] := by
    rintro rfl
    exact hfree rfl
  have hkeeps := (keepsFolders_put hfree n).2
  refine ⟨hkeeps _ h.here_folder, ?_, ?_⟩
  · intro p m hp
    by_cases heq : p = place
    · rw [heq]
      exact hkeeps _ hparent
    · rw [find?_put_of_ne _ _ heq] at hp
      exact hkeeps _ (h.parent_folder p m hp)
  · intro p m hp
    by_cases heq : p = place
    · rw [heq]
      exact hshort
    · rw [find?_put_of_ne _ _ heq] at hp
      exact h.short p m hp

theorem walk (h : t.IsTree) {base : Place} (hbase : t.find? base = some .folder)
    {segments : List String} (hwalk : t.walk base segments = .ok place) :
    t.find? place = some .folder := by
  induction segments generalizing base with
  | nil =>
    cases hwalk
    exact hbase
  | cons segment segments ih =>
    rw [FileTree.walk] at hwalk
    split at hwalk
    · exact ih hbase hwalk
    split at hwalk
    · exact ih (h.parent_folder _ _ hbase) hwalk
    split at hwalk
    · cases hwalk
    split at hwalk
    · cases hwalk
    · cases hwalk
    · next hfolder => exact ih hfolder hwalk

theorem base (h : t.IsTree) (path : String) : t.find? (t.base path) = some .folder := by
  rw [FileTree.base]
  split
  · rfl
  · exact h.here_folder

theorem lookUp (h : t.IsTree) {n : Node} (hfind : t.find? place = some n) :
    t.lookUp place = .ok (some n) :=
  lookUp_eq_ok_iff.2 ⟨h.short _ _ hfind, hfind⟩

/-- The place that a path leads to is in a folder, and it is one if the path ends with dots. -/
theorem locate (h : t.IsTree) {ending : Ending} (hlocate : t.locate path = .ok (place, ending)) :
    t.find? place.dropLast = some .folder ∧ (ending = .dots → t.find? place = some .folder) := by
  obtain ⟨-, folder, hwalk, harrive⟩ := locate_eq_ok_iff.1 hlocate
  have hfolder := h.walk (h.base path) hwalk
  unfold arrive at harrive
  split at harrive
  · cases harrive
    exact ⟨rfl, fun _ => rfl⟩
  split_ifs at harrive
  all_goals cases harrive
  · exact ⟨h.parent_folder _ _ hfolder, fun _ => hfolder⟩
  · have hparent := h.parent_folder _ _ hfolder
    exact ⟨h.parent_folder _ _ hparent, fun _ => hparent⟩
  · rw [List.dropLast_concat]
    exact ⟨hfolder, fun h => by cases h⟩
  · rw [List.dropLast_concat]
    exact ⟨hfolder, fun h => by cases h⟩

end IsTree

/-! ## The names in a folder -/

theorem nameBelow?_eq_some_iff {folder : Place} {name : String} :
    nameBelow? folder place = some name ↔ place = folder ++ [name] := by
  rcases List.eq_nil_or_concat place with rfl | ⟨parent, last, rfl⟩
  · simp [nameBelow?]
  · simp only [nameBelow?, List.concat_eq_append, List.getLast?_concat, List.dropLast_concat]
    constructor
    · intro h
      split at h
      · next hparent =>
        cases h
        rw [hparent]
      · cases h
    · intro h
      obtain ⟨hparent, hlast⟩ := List.append_inj' h rfl
      rw [if_pos hparent, List.singleton_inj.1 hlast]

/-- A path leads to a folder that can be looked up. -/
structure HasFolder (t : FileTree) (path : String) (folder : Place) : Prop where
  located : ∃ ending, t.locate path = .ok (folder, ending)
  found : t.lookUp folder = .ok (some .folder)

theorem list_eq_ok_iff {names : List String} :
    t.list path = .ok names ↔
      ∃ place, t.HasFolder path place ∧
        names = t.nodes.filterMap fun (p, _) => nameBelow? place p := by
  constructor
  · intro h
    obtain ⟨⟨place, ending⟩, hlocate, h⟩ := bind_eq_ok_iff.1 h
    obtain ⟨node, hlookUp, h⟩ := bind_eq_ok_iff.1 h
    split at h
    · cases h
    · cases h
    · cases h
      exact ⟨place, ⟨⟨ending, hlocate⟩, hlookUp⟩, rfl⟩
  · rintro ⟨place, ⟨⟨ending, hlocate⟩, hlookUp⟩, rfl⟩
    exact bind_eq_ok_iff.2 ⟨_, hlocate, bind_eq_ok_iff.2 ⟨_, hlookUp, rfl⟩⟩

/-- A folder holds the names at which something stands in it. -/
theorem mem_filterMap_nameBelow?_iff {folder : Place} {name : String} :
    name ∈ (t.nodes.filterMap fun (p, _) => nameBelow? folder p) ↔
      ∃ n, t.find? (folder ++ [name]) = some n := by
  have hfind : t.find? (folder ++ [name]) = t.nodes.lookup (folder ++ [name]) :=
    if_neg (by simp)
  rw [hfind, ← Option.isSome_iff_exists, List.lookup_isSome_iff, List.mem_filterMap]
  refine exists_congr fun node => and_congr_right fun _ => ?_
  rw [nameBelow?_eq_some_iff, beq_iff_eq, eq_comm]

/-! ## Making folders -/

theorem makeFolder_eq_ok_iff :
    t.makeFolder path = .ok u ↔
      ∃ place ending, t.locate path = .ok (place, ending) ∧ t.lookUp place = .ok none ∧
        u = t.put place .folder := by
  constructor
  · intro h
    obtain ⟨⟨place, ending⟩, hlocate, h⟩ := bind_eq_ok_iff.1 h
    obtain ⟨node, hlookUp, h⟩ := bind_eq_ok_iff.1 h
    split at h
    · cases h
    · next hnone =>
      rw [Bool.not_eq_true, Option.isSome_eq_false_iff, Option.isNone_iff_eq_none] at hnone
      cases h
      exact ⟨place, ending, hlocate, hnone ▸ hlookUp, rfl⟩
  · rintro ⟨place, ending, hlocate, hlookUp, rfl⟩
    exact bind_eq_ok_iff.2 ⟨_, hlocate, bind_eq_ok_iff.2 ⟨_, hlookUp, rfl⟩⟩

/-- A path is the other one or one of the paths above it. -/
def IsAbove (above path : String) : Prop :=
  Relation.ReflTransGen (fun a b => Path.parent? a = some b) path above

/-- One step of making a folder: it is made, or one of those above it. -/
def MakesAbove (path : String) (t u : FileTree) : Prop :=
  ∃ above, IsAbove above path ∧ t.makeFolder above = .ok u

theorem MakesAbove.of_parent {parent : String} (hparent : Path.parent? path = some parent)
    (h : MakesAbove parent t u) : MakesAbove path t u := by
  obtain ⟨above, habove, hmake⟩ := h
  exact ⟨above, habove.head hparent, hmake⟩

theorem MakesAbove.self (h : t.makeFolder path = .ok u) : MakesAbove path t u :=
  ⟨path, .refl, h⟩

/-- Making a folder makes it and the folders above it, one after the other. -/
theorem reflTransGen_makeFoldersWithin (depth : Nat) (path : String) (t : FileTree) :
    Relation.ReflTransGen (MakesAbove path) t (stateAfter (makeFoldersWithin depth path t)) := by
  induction depth generalizing path t with
  | zero =>
    unfold makeFoldersWithin
    split
    · exact .refl
    split
    · next hmake => exact .single (.self hmake)
    · exact .refl
    · split <;> exact .refl
  | succ depth ih =>
    unfold makeFoldersWithin
    split
    · exact .refl
    split
    · next hmake => exact .single (.self hmake)
    · split
      · next depth' parent hdepth hparent =>
        cases hdepth
        have habove := Relation.ReflTransGen.mono (fun _ _ => MakesAbove.of_parent hparent) _ _
          (ih parent t)
        split
        · next hparents =>
          rw [hparents] at habove
          exact habove
        · next hparents =>
          rw [hparents] at habove
          split
          · next hmake => exact habove.tail (.self hmake)
          · split <;> exact habove
      · exact .refl
    · split <;> exact .refl

theorem isFolder_iff :
    t.isFolder path = true ↔
      ∃ place ending, t.locate path = .ok (place, ending) ∧ t.find? place = some .folder := by
  unfold isFolder
  constructor
  · intro h
    split at h
    · next place ending hlocate => exact ⟨place, ending, hlocate, beq_iff_eq.1 h⟩
    · cases h
  · rintro ⟨place, ending, hlocate, hfind⟩
    rw [hlocate]
    exact beq_iff_eq.2 hfind

theorem HasFolder.of_keepsFolders (h : t.HasFolder path place) (hkeeps : KeepsFolders t u) :
    u.HasFolder path place := by
  obtain ⟨⟨ending, hlocate⟩, hlookUp⟩ := h
  obtain ⟨hshort, hfind⟩ := lookUp_eq_ok_iff.1 hlookUp
  exact ⟨⟨ending, locate_of_keepsFolders hkeeps hlocate⟩,
    lookUp_eq_ok_iff.2 ⟨hshort, hkeeps.2 _ hfind⟩⟩

theorem HasFolder.isFolder (h : t.HasFolder path place) : t.isFolder path = true := by
  obtain ⟨⟨ending, hlocate⟩, hlookUp⟩ := h
  exact isFolder_iff.2 ⟨place, ending, hlocate, (lookUp_eq_ok_iff.1 hlookUp).2⟩

/-- The path leads into the folder. -/
theorem HasFolder.enter (h : t.HasFolder path place) : t.enter path = .ok place := by
  obtain ⟨⟨ending, hlocate⟩, hlookUp⟩ := h
  exact (enter_eq_ok_iff (isValid_of_locate hlocate) hlookUp).2 ⟨ending, hlocate⟩

/-- A folder that exists is not made again. -/
theorem makeFolders_of_isFolder (h : t.isFolder path = true) : makeFolders path t = .ok () t := by
  obtain ⟨place, ending, hlocate, hfind⟩ := isFolder_iff.1 h
  have hempty : path.isEmpty = false := by
    have hne := (isValid_of_locate hlocate).ne_empty
    simpa using hne
  -- the folder stands there, so making it fails, but not for want of a folder above it
  have hmake : ∃ fault, t.makeFolder path = .error fault ∧ fault ≠ .notFound := by
    rw [makeFolder, hlocate]
    show ∃ fault, (t.lookUp place >>= _) = .error fault ∧ _
    rw [lookUp, hfind]
    split
    · exact ⟨.nameTooLong, rfl, by decide⟩
    · exact ⟨.alreadyExists, rfl, by decide⟩
  obtain ⟨fault, hmake, hfault⟩ := hmake
  unfold makeFolders makeFoldersWithin
  rw [hempty, if_neg Bool.false_ne_true, hmake]
  split
  · next heq => cases heq
  · next heq =>
    cases heq
    exact absurd rfl hfault
  · next heq => rw [if_pos h]

/-- A path and those above it were made folders, one after the other, or it was one before. -/
structure Grows (path : String) (t u : FileTree) : Prop where
  steps : Relation.ReflTransGen (MakesAbove path) t u
  idle : t.isFolder path = true → u = t

theorem Grows.refl (path : String) (t : FileTree) : Grows path t t := ⟨.refl, fun _ => rfl⟩

/-- Making a folder does this, whether it succeeds or fails. -/
theorem grows_makeFolders (path : String) (t : FileTree) :
    Grows path t (stateAfter (makeFolders path t)) := by
  refine ⟨reflTransGen_makeFoldersWithin _ path t, ?_⟩
  intro hfolder
  rw [makeFolders_of_isFolder hfolder]
  rfl

/-- Nothing was made but folders, each where the path leads or one of the paths above it. -/
structure MadeFolders (path : String) (t u : FileTree) : Prop where
  here : u.here = t.here
  kept : ∀ p n, t.find? p = some n → u.find? p = some n
  made : ∀ p n, u.find? p = some n → t.find? p = none →
    n = .folder ∧ ∃ above ending, IsAbove above path ∧ u.locate above = .ok (p, ending)

namespace MadeFolders

theorem refl (path : String) (t : FileTree) : MadeFolders path t t := by
  refine ⟨rfl, fun _ _ hp => hp, ?_⟩
  intro p n hp hnone
  rw [hp] at hnone
  cases hnone

theorem keepsFolders (h : MadeFolders path t u) : KeepsFolders t u :=
  ⟨h.here, fun p => h.kept p .folder⟩

/-- One more folder may be made. -/
theorem tail {v : FileTree} (h : MadeFolders path t u) (hstep : MakesAbove path u v) :
    MadeFolders path t v := by
  obtain ⟨above, habove, hmake⟩ := hstep
  obtain ⟨place, ending, hlocate, hlookUp, rfl⟩ := makeFolder_eq_ok_iff.1 hmake
  obtain ⟨-, hnone⟩ := lookUp_eq_ok_iff.1 hlookUp
  have hkeeps : KeepsFolders u (u.put place .folder) := keepsFolders_put (by simp [hnone]) _
  have hne : place ≠ [] := by
    rintro rfl
    cases hnone
  refine ⟨h.here, ?_, ?_⟩
  · intro p n hp
    have hp' := h.kept p n hp
    have hother : p ≠ place := by
      rintro rfl
      rw [hnone] at hp'
      cases hp'
    rw [find?_put_of_ne _ _ hother, hp']
  · intro p n hp hfree
    by_cases heq : p = place
    · subst heq
      rw [find?_put_self _ _ hne] at hp
      cases hp
      exact ⟨rfl, above, ending, habove, locate_of_keepsFolders hkeeps hlocate⟩
    · rw [find?_put_of_ne _ _ heq] at hp
      obtain ⟨hn, above', ending', habove', hlocate'⟩ := h.made p n hp hfree
      exact ⟨hn, above', ending', habove', locate_of_keepsFolders hkeeps hlocate'⟩

end MadeFolders

/-- Nothing else is made with a folder. -/
theorem Grows.madeFolders (h : Grows path t u) : MadeFolders path t u := by
  obtain ⟨hsteps, -⟩ := h
  induction hsteps with
  | refl => exact .refl path t
  | tail _ hstep ih => exact ih.tail hstep

/-- Where folders were made there is still a tree. -/
theorem IsTree.grows (h : t.IsTree) (hgrows : Grows path t u) : u.IsTree := by
  obtain ⟨hsteps, -⟩ := hgrows
  induction hsteps with
  | refl => exact h
  | tail _ hstep ih =>
    obtain ⟨above, -, hmake⟩ := hstep
    obtain ⟨place, ending, hlocate, hlookUp, rfl⟩ := makeFolder_eq_ok_iff.1 hmake
    obtain ⟨hshort, hnone⟩ := lookUp_eq_ok_iff.1 hlookUp
    exact ih.put (ih.locate hlocate).1 hshort (by simp [hnone]) _

end RecordStore.FileTree

import RecordStore.Proofs.Record.Layout
import RecordStore.Proofs.Table.Effect

/-!
# What a query depends on

A query looks at the file of its table and at where the temporary file beside it may be put, and at
nothing else. Where two trees are the same in this, it fails in both, or it succeeds in both, gives
the same answer and writes the same to both.

- `BothOrNeither`: two operations of which both fail, or both succeed with results that are related,
  with `BothOrNeither.bind` and `BothOrNeither.map` for one operation after the other;
- `FileTree.SameFolders`: the same folders are in both trees, so paths lead to the same places;
- `FileTree.Patch`: nodes to put at some places or to take away from them;
- `Table.SameFile`: the file of a table is the same in both trees; `Table.PatchedAlike`: the same
  was written to both;
- `query_local`: a query depends on nothing else.
-/

namespace RecordStore

/-! ## Both or neither -/

/-- The ends of two operations of which both have failed, or both have succeeded with results and
states that are related. -/
inductive BothOrNeither {ε σ α β : Type} (R : α → σ → β → σ → Prop) :
    EStateM.Result ε σ α → EStateM.Result ε σ β → Prop
  | failed (e e' : ε) (s s' : σ) : BothOrNeither R (.error e s) (.error e' s')
  | succeeded (a : α) (b : β) (s s' : σ) (related : R a s b s') :
      BothOrNeither R (.ok a s) (.ok b s')

namespace BothOrNeither

variable {ε σ α α' β β' : Type} {R : α → σ → α' → σ → Prop} {S : β → σ → β' → σ → Prop}
  {x : EStateM ε σ α} {y : EStateM ε σ α'} {s s' : σ}

/-- The second operation succeeds if the first does. -/
theorem exists_of_ok {r : EStateM.Result ε σ α} {r' : EStateM.Result ε σ α'}
    (h : BothOrNeither R r r') {a : α} (hr : r = .ok a s) : ∃ b s', r' = .ok b s' ∧ R a s b s' := by
  cases h with
  | failed => cases hr
  | succeeded a b s s' related =>
    cases hr
    exact ⟨b, s', rfl, related⟩

/-- Both may be preceded by operations that give one result and leave the states alone. -/
theorem bind {f : α → EStateM ε σ β} {g : α → EStateM ε σ β'} {y : EStateM ε σ α}
    (h : BothOrNeither (fun a t b t' => a = b ∧ t = s ∧ t' = s') (x s) (y s'))
    (hnext : ∀ a, BothOrNeither S (f a s) (g a s')) :
    BothOrNeither S ((x >>= f) s) ((y >>= g) s') := by
  simp only [Bind.bind, EStateM.bind]
  generalize x s = r, y s' = r' at h ⊢
  cases h with
  | failed e e' t t' => exact .failed e e' t t'
  | succeeded a b t t' related =>
    obtain ⟨rfl, rfl, rfl⟩ := related
    exact hnext a

/-- Both may be followed by operations that only turn their results into others. -/
theorem map (f : α → β) (g : α' → β') (h : BothOrNeither R (x s) (y s'))
    (himp : ∀ a t b t', R a t b t' → S (f a) t (g b) t') :
    BothOrNeither S ((x >>= fun a => pure (f a)) s) ((y >>= fun b => pure (g b)) s') := by
  simp only [Bind.bind, EStateM.bind]
  generalize x s = r, y s' = r' at h ⊢
  cases h with
  | failed e e' t t' => exact .failed e e' t t'
  | succeeded a b t t' related => exact .succeeded _ _ t t' (himp a t b t' related)

/-- An answer that does not come from the files is the same for both. -/
theorem ofExcept {files files' : FileTree} (r : Except QueryError α) :
    BothOrNeither (fun a t b t' => a = b ∧ t = files ∧ t' = files')
      (Disk.ofExcept r files) (Disk.ofExcept r files') := by
  cases r with
  | error e => exact .failed e e files files'
  | ok a => exact .succeeded a a files files' ⟨rfl, rfl, rfl⟩

/-- So is one to a question that both trees answer alike. -/
theorem ask {files files' : FileTree} {path : String} {question : FileTree → Except Fault α}
    (h : question files' = question files) :
    BothOrNeither (fun a t b t' => a = b ∧ t = files ∧ t' = files')
      (Disk.ask path question files) (Disk.ask path question files') := by
  unfold Disk.ask
  rw [h]
  cases question files with
  | error fault => exact .failed _ _ files files'
  | ok a => exact .succeeded a a files files' ⟨rfl, rfl, rfl⟩

end BothOrNeither

/-! ## Trees with the same folders -/

namespace FileTree

variable {files files' : FileTree} {path : String} {place : Place}

/-- Relative paths start from the same folder, and the same folders exist. -/
structure SameFolders (files files' : FileTree) : Prop where
  here : files'.here = files.here
  folder_iff : ∀ p, files'.find? p = some .folder ↔ files.find? p = some .folder

namespace SameFolders

theorem keepsFolders (h : SameFolders files files') : KeepsFolders files files' :=
  ⟨h.here, fun p => (h.folder_iff p).2⟩

theorem symm (h : SameFolders files files') : SameFolders files' files :=
  ⟨h.here.symm, fun p => (h.folder_iff p).symm⟩

theorem leadsTo (h : SameFolders files files') (hplace : files.LeadsTo path place) :
    files'.LeadsTo path place :=
  hplace.of_keepsFolders h.keepsFolders (mt (h.folder_iff place).1 hplace.notFolder)

end SameFolders

/-- Nodes that are put at places, or are taken away from them. Nothing is said of the places that
are left alone. -/
abbrev Patch := Place → Option (Option Node)

namespace Patch

/-- The patch of a single place. -/
def single (place : Place) (n : Option Node) : Patch := fun p => if p = place then some n else none

/-- Two patches one after the other. -/
def andThen (w v : Patch) : Patch := fun p => (v p).or (w p)

/-- A patch has turned the first tree into the second. -/
def Turns (w : Patch) (files files' : FileTree) : Prop :=
  ∀ p, files'.find? p = (w p).getD (files.find? p)

theorem turns_put (files : FileTree) (h : place ≠ []) (n : Node) :
    (Patch.single place (some n)).Turns files (files.put place n) := by
  intro p
  unfold Patch.single
  split
  · next hp => rw [hp, find?_put_self _ _ h, Option.getD_some]
  · next hp => rw [find?_put_of_ne _ _ hp, Option.getD_none]

theorem turns_erase (files : FileTree) (h : place ≠ []) :
    (Patch.single place none).Turns files (files.erase place) := by
  intro p
  unfold Patch.single
  split
  · next hp => rw [hp, find?_erase_self _ h, Option.getD_some]
  · next hp => rw [find?_erase_of_ne _ hp, Option.getD_none]

theorem Turns.trans {w v : Patch} {files'' : FileTree} (h : w.Turns files files')
    (h' : v.Turns files' files'') : (w.andThen v).Turns files files'' := by
  intro p
  rw [h' p, h p, andThen]
  cases v p <;> rfl

/-- Two patches that agree where both say something can be made in either order. -/
theorem Turns.comm {w v : Patch} {files left right left' right' : FileTree}
    (hleft : w.Turns files left) (hright : v.Turns files right) (hleft' : v.Turns left left')
    (hright' : w.Turns right right') (hagree : ∀ p n m, w p = some n → v p = some m → n = m)
    (p : Place) : left'.find? p = right'.find? p := by
  rw [hleft' p, hleft p, hright' p, hright p]
  cases hw : w p with
  | none => rfl
  | some n =>
    cases hv : v p with
    | none => rfl
    | some m =>
      have heq := hagree p n m hw hv
      exact heq.symm

end Patch

end FileTree

/-- The entries are the same but for the times that the queries took. -/
def EntrySet.SameButTimes (a b : EntrySet) : Prop := a.map Entry.stored = b.map Entry.stored

namespace Table

open FileTree (Patch)

variable {t t' : Table} {files files' : FileTree} {own : Place}

/-- A query makes no folders and takes none away. -/
theorem Effect.sameFolders (h : Effect t files t' files') : files.SameFolders files' := by
  refine ⟨h.keepsFolders.1, fun p => ⟨?_, h.keepsFolders.2 p⟩⟩
  intro hfolder
  obtain hbefore | ⟨⟨content, hfile⟩, -⟩ := h.found hfolder
  · exact hbefore
  · cases hfile

/-! ## Trees with the same file of a table -/

/-- The table has its file at the same place in both trees, and its content is the same. -/
structure SameFile (t : Table) (own : Place) (files files' : FileTree) : Prop where
  folders : files.SameFolders files'
  hasFile : files.HasFile t.path own
  same : files'.find? own = files.find? own

/-- The same was written to both trees: at most the file of the table, and of the temporary file
nothing is left. -/
def PatchedAlike (t : Table) (own : Place) (files files' after after' : FileTree) : Prop :=
  ∃ w : Patch, w.Turns files after ∧ w.Turns files' after' ∧
    ∀ p n, w p = some n → p = own ∨ files.LeadsTo t.temporaryPath p ∧ n = none

theorem PatchedAlike.refl (t : Table) (own : Place) (files files' : FileTree) :
    t.PatchedAlike own files files' files files' :=
  ⟨fun _ => none, fun _ => rfl, fun _ => rfl, fun _ _ h => by cases h⟩

/-- The patch of the place of the file alone. -/
theorem PatchedAlike.of_single {after after' : FileTree} {n : Option Node}
    (h : (Patch.single own n).Turns files after) (h' : (Patch.single own n).Turns files' after') :
    t.PatchedAlike own files files' after after' := by
  refine ⟨_, h, h', ?_⟩
  intro p m hm
  unfold Patch.single at hm
  split at hm
  · next hp => exact .inl hp
  · cases hm

/-- The content of a file can be replaced if the temporary file may be put somewhere. -/
theorem exists_replaceContent {temporary : Place} (hleads : files.LeadsTo t.path own)
    (htemporary : files.LeadsTo t.temporaryPath temporary) (text : List Char) :
    ∃ after, t.replaceContent text files = .ok () after ∧
      (((Patch.single temporary (some (.file (String.ofList text).toUTF8))).andThen
        (.single temporary none)).andThen
          (.single own (some (.file (String.ofList text).toUTF8)))).Turns files after := by
  have hover : files.overwrite t.temporaryPath (String.ofList text).toUTF8 =
      .ok (files.put temporary _) :=
    FileTree.overwrite_eq_ok_iff.2 ⟨temporary, htemporary, rfl⟩
  have hrename : (files.put temporary (.file (String.ofList text).toUTF8)).rename
      t.temporaryPath t.path = .ok _ :=
    FileTree.rename_eq_ok_iff.2 ⟨temporary, own, _, htemporary.put htemporary _,
      FileTree.find?_put_self _ _ htemporary.ne_nil, hleads.put htemporary _, rfl⟩
  refine ⟨_, replaceContent_eq_ok_iff.2 ⟨_, hover, hrename⟩, ?_⟩
  exact ((Patch.turns_put files htemporary.ne_nil _).trans
    (Patch.turns_erase _ htemporary.ne_nil)).trans (Patch.turns_put _ hleads.ne_nil _)

/-- Otherwise it cannot. -/
theorem exists_error_of_replaceContent
    (hplace : ¬∃ temporary, files.LeadsTo t.temporaryPath temporary) (text : List Char) :
    ∃ e after, t.replaceContent text files = .error e after := by
  cases hrun : t.replaceContent text files with
  | error e after => exact ⟨e, after, rfl⟩
  | ok u after =>
    obtain ⟨middle, hover, -⟩ := replaceContent_eq_ok_iff.1 hrun
    obtain ⟨temporary, htemporary, -⟩ := FileTree.overwrite_eq_ok_iff.1 hover
    exact absurd ⟨temporary, htemporary⟩ hplace

namespace SameFile

theorem leadsTo (h : t.SameFile own files files') : files'.LeadsTo t.path own :=
  h.folders.leadsTo h.hasFile.1

theorem hasFile' (h : t.SameFile own files files') : files'.HasFile t.path own := by
  obtain ⟨-, content, hfile⟩ := h.hasFile
  exact ⟨h.leadsTo, content, h.same.trans hfile⟩

theorem readText (h : t.SameFile own files files') :
    files'.readText t.path = files.readText t.path := by
  obtain ⟨hleads, content, hfile⟩ := h.hasFile
  have hread : files.read t.path = .ok content := FileTree.read_eq_ok_iff.2 ⟨own, hleads, hfile⟩
  have hread' : files'.read t.path = .ok content :=
    FileTree.read_eq_ok_iff.2 ⟨own, h.leadsTo, h.same.trans hfile⟩
  rw [FileTree.readText, FileTree.readText, hread, hread']

/-- Bytes can be added at the end of both files. -/
theorem append (h : t.SameFile own files files') (more : ByteArray) :
    BothOrNeither (fun _ after _ after' => t.PatchedAlike own files files' after after')
      (Disk.change t.path (·.append t.path more) files)
      (Disk.change t.path (·.append t.path more) files') := by
  obtain ⟨hleads, content, hfile⟩ := h.hasFile
  have happend : files.append t.path more = .ok _ :=
    FileTree.append_eq_ok_iff.2 ⟨own, content, hleads, hfile, rfl⟩
  have happend' : files'.append t.path more = .ok _ :=
    FileTree.append_eq_ok_iff.2 ⟨own, content, h.leadsTo, h.same.trans hfile, rfl⟩
  rw [(Disk.change_eq_ok_iff _ (·.append t.path more)).2 happend,
    (Disk.change_eq_ok_iff _ (·.append t.path more)).2 happend']
  exact .succeeded _ _ _ _
    (.of_single (Patch.turns_put _ hleads.ne_nil _) (Patch.turns_put _ hleads.ne_nil _))

/-- The contents of both files can be replaced, or of neither: it only matters where the temporary
file may be put. -/
theorem replaceContent (h : t.SameFile own files files') (text : List Char) :
    BothOrNeither (fun _ after _ after' => t.PatchedAlike own files files' after after')
      (t.replaceContent text files) (t.replaceContent text files') := by
  by_cases hplace : ∃ temporary, files.LeadsTo t.temporaryPath temporary
  · obtain ⟨temporary, htemporary⟩ := hplace
    obtain ⟨after, hrun, hturns⟩ := exists_replaceContent h.hasFile.1 htemporary text
    obtain ⟨after', hrun', hturns'⟩ :=
      exists_replaceContent h.leadsTo (h.folders.leadsTo htemporary) text
    rw [hrun, hrun']
    refine .succeeded _ _ _ _ ⟨_, hturns, hturns', ?_⟩
    intro p n hn
    unfold Patch.andThen Patch.single at hn
    by_cases hp : p = own
    · exact .inl hp
    by_cases hp' : p = temporary
    · rw [if_neg hp, if_pos hp', Option.none_or, Option.some_or] at hn
      cases hn
      exact .inr ⟨hp' ▸ htemporary, rfl⟩
    · rw [if_neg hp, if_neg hp', if_neg hp'] at hn
      cases hn
  · have hplace' : ¬∃ temporary, files'.LeadsTo t.temporaryPath temporary := by
      rintro ⟨temporary, htemporary⟩
      exact hplace ⟨temporary, h.folders.symm.leadsTo htemporary⟩
    obtain ⟨e, after, hrun⟩ := exists_error_of_replaceContent hplace text
    obtain ⟨e', after', hrun'⟩ := exists_error_of_replaceContent hplace' text
    rw [hrun, hrun']
    exact .failed e e' after after'

/-- Both files can be deleted. -/
theorem deleteFile (h : t.SameFile own files files') :
    BothOrNeither (fun _ after _ after' => t.PatchedAlike own files files' after after')
      (t.deleteFile files) (t.deleteFile files') := by
  have hdelete : ∀ files : FileTree, files.HasFile t.path own →
      t.deleteFile files = .ok () (files.erase own) := by
    intro files hfile
    rw [Table.deleteFile, Disk.change, hfile.remove]
  have hne := h.leadsTo.ne_nil
  rw [hdelete files h.hasFile, hdelete files' h.hasFile']
  exact .succeeded _ _ _ _ (.of_single (Patch.turns_erase files hne) (Patch.turns_erase files' hne))

end SameFile

/-! ## Queries -/

/-- Both queries answer the same, apart from the times, and write the same. -/
def AnswersAlike (t : Table) (own : Place) (files files' : FileTree) (a : EntrySet)
    (after : FileTree) (b : EntrySet) (after' : FileTree) : Prop :=
  a.SameButTimes b ∧ t.PatchedAlike own files files' after after'

variable {c c' : Circumstances}

theorem add_local (h : t.SameFile own files files') (newId : String) (values : List Literal) :
    BothOrNeither (t.AnswersAlike own files files') (t.add newId values files)
      (t.add newId values files') := by
  refine .bind (.ofExcept _) fun data => ?_
  exact .map (fun _ => _) (fun _ => _) (h.append _) fun _ _ _ _ hpatch => ⟨rfl, hpatch⟩

theorem get_local (h : t.SameFile own files files') (elapsed elapsed' : UInt64) (target : Target) :
    BothOrNeither (t.AnswersAlike own files files') (t.get elapsed target files)
      (t.get elapsed' target files') := by
  refine .bind (.ask h.readText) fun text => ?_
  refine .map _ _ (.ofExcept _) ?_
  rintro selected _ _ _ ⟨rfl, rfl, rfl⟩
  exact ⟨by simp [EntrySet.SameButTimes, Entry.timed, Entry.stored], .refl t own _ _⟩

theorem remove_local (h : t.SameFile own files files') (target : Target) :
    BothOrNeither (t.AnswersAlike own files files') (t.remove target files)
      (t.remove target files') := by
  refine .bind (.ask h.readText) fun text => ?_
  refine .bind (.ofExcept _) fun selected => ?_
  split
  · exact .succeeded _ _ _ _ ⟨rfl, .refl t own _ _⟩
  · exact .map (fun _ => _) (fun _ => _) (h.replaceContent _) fun _ _ _ _ hpatch => ⟨rfl, hpatch⟩

theorem set_local (h : t.SameFile own files files') (elapsed elapsed' : UInt64) (target : Target)
    (values : List Literal) :
    BothOrNeither (t.AnswersAlike own files files') (t.set elapsed target values files)
      (t.set elapsed' target values files') := by
  refine .bind (.ofExcept _) fun replacements => ?_
  refine .bind (.ask h.readText) fun text => ?_
  refine .bind (.ofExcept _) fun selected => ?_
  split
  · exact .succeeded _ _ _ _ ⟨rfl, .refl t own _ _⟩
  · refine .map (fun _ => _) (fun _ => _) (h.replaceContent _) fun _ _ _ _ hpatch => ⟨?_, hpatch⟩
    simp [EntrySet.SameButTimes, Entry.timed, Entry.stored]

/-- On two trees with the same file of its table, a query succeeds in both or in neither. If it does
it gives the same answer, the same handle, and writes the same. -/
theorem query_local (h : t.SameFile own files files') (hid : c'.newId = c.newId) (q : Query) :
    BothOrNeither
      (fun a after b after' =>
        t.AnswersAlike own files files' a.1 after b.1 after' ∧ a.2 = b.2)
      (t.query c q files) (t.query c' q files') := by
  rw [query, query]
  split
  · exact .failed _ _ files files'
  · cases q with
    | add table values =>
      rw [run, run, hid]
      exact .map _ _ (add_local h c.newId values) fun _ _ _ _ halike => ⟨halike, rfl⟩
    | get table target =>
      exact .map _ _ (get_local h c.elapsed c'.elapsed target) fun _ _ _ _ halike => ⟨halike, rfl⟩
    | remove table target =>
      exact .map _ _ (remove_local h target) fun _ _ _ _ halike => ⟨halike, rfl⟩
    | set table target values =>
      exact .map _ _ (set_local h c.elapsed c'.elapsed target values)
        fun _ _ _ _ halike => ⟨halike, rfl⟩
    | drop table =>
      exact .map (fun _ => _) (fun _ => _) h.deleteFile
        fun _ _ _ _ hpatch => ⟨⟨rfl, hpatch⟩, rfl⟩

end Table

end RecordStore

import RecordStore.Proofs.FileTree
import RecordStore.Proofs.Text.Bytes
import RecordStore.Table.Query

/-!
# The file of a table

A table file is changed in two ways: text is added at its end, or a new text is written to a
temporary file that takes its place. Either way the text that was written is the one read next.

- `FileTree.readText_eq_ok_iff`: a text is read from a place where its bytes stand;
- `Table.Stores`: the file of a table holds a text, and both its path and that of the temporary file
  can be written;
- `exists_of_replaceContent`, `replaceContent_eq`: the tree after the content was replaced;
- `stores_of_replaceContent`: the text that was written is then the one that is stored;
- `replaceContent_again`: to write it once more changes nothing;
- `Stores.append`, `Stores.replaceContent`: it stays so, and the changes succeed;
- `query_eq_ok_iff`: a query succeeds on a live handle only, which then runs it.
-/

namespace RecordStore

/-- A text is read from a place where its bytes stand. -/
theorem FileTree.readText_eq_ok {t : FileTree} {path text : String} {place : Place}
    (h : t.LeadsTo path place) (hfind : t.find? place = some (.file text.toUTF8)) :
    t.readText path = .ok text := by
  refine bind_eq_ok_iff.2 ⟨_, FileTree.read_eq_ok_iff.2 ⟨place, h, hfind⟩, ?_⟩
  rw [Text.fromUTF8?_toUTF8]

/-- A text is read exactly where a path leads to its bytes. -/
theorem FileTree.readText_eq_ok_iff {t : FileTree} {path text : String} :
    t.readText path = .ok text ↔
      ∃ place, t.LeadsTo path place ∧ t.find? place = some (.file text.toUTF8) := by
  constructor
  · intro h
    obtain ⟨content, hread, htext⟩ := bind_eq_ok_iff.1 h
    obtain ⟨place, hplace, hfile⟩ := FileTree.read_eq_ok_iff.1 hread
    split at htext
    · next heq =>
      cases htext
      exact ⟨place, hplace, by rw [Text.toUTF8_of_fromUTF8? heq, hfile]⟩
    · cases htext
  · rintro ⟨place, hplace, hfile⟩
    exact FileTree.readText_eq_ok hplace hfile

theorem Disk.ofExcept_eq_ok_iff {α : Type} {r : Except QueryError α} {a : α}
    {files files' : FileTree} :
    Disk.ofExcept r files = .ok a files' ↔ r = .ok a ∧ files' = files := by
  unfold Disk.ofExcept
  cases r with
  | error e => simp
  | ok b => simp [eq_comm]

theorem Disk.ask_eq_ok_iff {α : Type} {path : String} {question : FileTree → Except Fault α} {a : α}
    {files files' : FileTree} :
    Disk.ask path question files = .ok a files' ↔ question files = .ok a ∧ files' = files := by
  unfold Disk.ask
  cases question files with
  | error fault => simp
  | ok b => simp [eq_comm]

theorem Disk.change_eq_ok_iff (path : String) (update : FileTree → Except Fault FileTree)
    {files files' : FileTree} :
    Disk.change path update files = .ok () files' ↔ update files = .ok files' := by
  unfold Disk.change
  cases update files with
  | error fault => simp
  | ok u => simp

namespace Table

variable {t : Table} {files files' : FileTree} {text : List Char}

theorem replaceContent_eq_ok_iff :
    t.replaceContent text files = .ok () files' ↔
      ∃ middle, files.overwrite t.temporaryPath (String.ofList text).toUTF8 = .ok middle ∧
        middle.rename t.temporaryPath t.path = .ok files' := by
  constructor
  · intro h
    simp only [replaceContent, bind, EStateM.bind] at h
    split at h
    · next middle hover =>
      exact ⟨middle, (Disk.change_eq_ok_iff _ _).1 hover, (Disk.change_eq_ok_iff _ _).1 h⟩
    · cases h
  · rintro ⟨middle, hover, hrename⟩
    have hwrite := (Disk.change_eq_ok_iff t.temporaryPath
      (·.overwrite t.temporaryPath (String.ofList text).toUTF8)).2 hover
    simp only [replaceContent, bind, EStateM.bind, hwrite]
    exact (Disk.change_eq_ok_iff _ (·.rename t.temporaryPath t.path)).2 hrename

/-- The file of a table holds a text, and both its path and that of the temporary file lead to
places for files. -/
structure Stores (t : Table) (files : FileTree) (text : List Char) : Prop where
  file : ∃ place, files.LeadsTo t.path place ∧
    files.find? place = some (.file (String.ofList text).toUTF8)
  temporary : ∃ place, files.LeadsTo t.temporaryPath place

theorem Stores.readText (h : t.Stores files text) :
    files.readText t.path = .ok (String.ofList text) := by
  obtain ⟨place, hleads, hfind⟩ := h.file
  exact FileTree.readText_eq_ok hleads hfind

/-- Replacing the content leaves a tree in which only two places may differ: the new content stands
where the path of the table leads, and nothing where that of the temporary file leads. -/
theorem exists_of_replaceContent (h : t.replaceContent text files = .ok () files') :
    ∃ temporary place, files'.LeadsTo t.temporaryPath temporary ∧ files'.LeadsTo t.path place ∧
      files' = (files.erase temporary).put place (.file (String.ofList text).toUTF8) := by
  obtain ⟨middle, hover, hrename⟩ := replaceContent_eq_ok_iff.1 h
  obtain ⟨temporary, htemporary, rfl⟩ := FileTree.overwrite_eq_ok_iff.1 hover
  obtain ⟨old, new, content, hold, hfind, hnew, rfl⟩ := FileTree.rename_eq_ok_iff.1 hrename
  -- what is renamed is the file that was just written
  have hplace : old = temporary := hold.unique (htemporary.put htemporary _)
  subst hplace
  rw [FileTree.find?_put_self _ _ hold.ne_nil] at hfind
  cases hfind
  have hnew' := hnew.erase hold
  exact ⟨old, new, (hold.erase hold).put hnew' _, hnew'.put hnew' _,
    by rw [FileTree.erase_put_self]⟩

/-- A content that was replaced is the one that is stored. -/
theorem stores_of_replaceContent (h : t.replaceContent text files = .ok () files') :
    t.Stores files' text := by
  obtain ⟨temporary, place, htemporary, hplace, hfiles⟩ := exists_of_replaceContent h
  refine ⟨⟨place, hplace, ?_⟩, temporary, htemporary⟩
  rw [hfiles, FileTree.find?_put_self _ _ hplace.ne_nil]

/-- The content is replaced where both paths lead to places for files. -/
theorem replaceContent_eq {temporary place : Place}
    (htemporary : files.LeadsTo t.temporaryPath temporary) (hplace : files.LeadsTo t.path place)
    (text : List Char) :
    t.replaceContent text files =
      .ok () ((files.erase temporary).put place (.file (String.ofList text).toUTF8)) := by
  have hover : files.overwrite t.temporaryPath (String.ofList text).toUTF8 = .ok _ :=
    FileTree.overwrite_eq_ok_iff.2 ⟨temporary, htemporary, rfl⟩
  have htemporary' := htemporary.put htemporary (String.ofList text).toUTF8
  have hrename := FileTree.rename_eq_ok_iff.2 ⟨temporary, place, _, htemporary',
    FileTree.find?_put_self _ _ htemporary.ne_nil, hplace.put htemporary _, rfl⟩
  rw [FileTree.erase_put_self] at hrename
  exact replaceContent_eq_ok_iff.2 ⟨_, hover, hrename⟩

/-- The content of a stored file can be replaced. -/
theorem Stores.replaceContent (h : t.Stores files text) (text' : List Char) :
    ∃ files', t.replaceContent text' files = .ok () files' ∧ t.Stores files' text' := by
  obtain ⟨place, hplace, -⟩ := h.file
  obtain ⟨temporary, htemporary⟩ := h.temporary
  have hreplace := replaceContent_eq htemporary hplace text'
  exact ⟨_, hreplace, stores_of_replaceContent hreplace⟩

/-- Writing the content that was just written leaves the whole tree as it is. -/
theorem replaceContent_again (h : t.replaceContent text files = .ok () files') :
    t.replaceContent text files' = .ok () files' := by
  obtain ⟨temporary, place, htemporary, hplace, hfiles⟩ := exists_of_replaceContent h
  rw [replaceContent_eq htemporary hplace, hfiles, FileTree.put_erase_put]

/-- Text can be added at the end of a stored file. -/
theorem Stores.append (h : t.Stores files text) (more : List Char) :
    ∃ files', files.append t.path (String.ofList more).toUTF8 = .ok files' ∧
      t.Stores files' (text ++ more) := by
  obtain ⟨place, hplace, hfind⟩ := h.file
  obtain ⟨temporary, htemporary⟩ := h.temporary
  have happend : files.append t.path (String.ofList more).toUTF8 = .ok _ :=
    FileTree.append_eq_ok_iff.2 ⟨place, _, hplace, hfind, rfl⟩
  refine ⟨_, happend, ⟨place, hplace.put hplace _, ?_⟩, temporary, htemporary.put hplace _⟩
  rw [FileTree.find?_put_self _ _ hplace.ne_nil]
  simp

/-! ## Handles -/

variable {t' : Table} {c : Circumstances} {q : Query} {answer : EntrySet}

/-- A live handle runs every query. -/
theorem query_of_live (h : t.dropped = false) (c : Circumstances) (q : Query) :
    t.query c q = t.run c q := by
  rw [query, if_neg (Bool.eq_false_iff.1 h)]

/-- Only a live handle runs a query. -/
theorem query_eq_ok_iff {result : EntrySet × Table} :
    t.query c q files = .ok result files' ↔
      t.dropped = false ∧ t.run c q files = .ok result files' := by
  cases hdropped : t.dropped with
  | false =>
    rw [query_of_live hdropped]
    exact ⟨fun h => ⟨rfl, h⟩, fun h => h.2⟩
  | true =>
    rw [query, if_pos hdropped]
    exact ⟨by rintro ⟨⟩, by rintro ⟨⟨⟩, -⟩⟩

/-- An answer that is given together with the handle. -/
theorem return_eq_ok_iff {x : Disk EntrySet} :
    (do return (← x, t) : Disk (EntrySet × Table)) files = .ok (answer, t') files' ↔
      x files = .ok answer files' ∧ t' = t := by
  constructor
  · intro h
    obtain ⟨_, _, hx, hreturn⟩ := bind_run_eq_ok_iff.1 h
    cases hreturn
    exact ⟨hx, rfl⟩
  · rintro ⟨hx, rfl⟩
    exact bind_run_eq_ok_iff.2 ⟨_, _, hx, rfl⟩

end Table

end RecordStore

import RecordStore.Database
import RecordStore.Proofs.Table.Storage

/-!
# Running a single query

A text that is read as one query runs it on the table that it names. Whatever comes of it, the store
answers what the table answered, and no table but that one gets another handle.

- `Database.find?_replace`, `Database.find?_replace_of_ne`: a handle that takes its own place
  changes no lookup, and no handle changes the lookup of another name;
- `Store.execute_of_parse`: the run of a text that is one query;
- `FileTree.exists_append`: text can be added at the end of a file that can be read.
-/

namespace RecordStore

/-- A table is found under its own name. -/
theorem Database.name_of_find? {db : Database} {name : String} {t : Table}
    (h : db.find? name = some t) : t.name = name := by
  have hname := List.find?_some h
  exact beq_iff_eq.1 hname

/-- A handle takes the place of one with its name. -/
theorem Database.name_replaced (t u : Table) :
    (if u.name == t.name then t else u).name = u.name := by
  split
  · next hu => exact (beq_iff_eq.1 hu).symm
  · rfl

/-- A lookup finds the handle that took the place of the one found before. -/
theorem Database.find?_replace_eq_map (db : Database) (t : Table) (name : String) :
    (db.replace t).find? name =
      (db.find? name).map fun u => if u.name == t.name then t else u := by
  rw [Database.find?, Database.replace, List.find?_map, Database.find?]
  simp only [Function.comp_def, Database.name_replaced]

/-- A handle that takes its own place changes no lookup. -/
theorem Database.find?_replace {db : Database} {t : Table} (h : db.find? t.name = some t)
    (name : String) : (db.replace t).find? name = db.find? name := by
  rw [Database.find?_replace_eq_map]
  cases hfind : db.find? name with
  | none => rfl
  | some u =>
    rw [Option.map_some]
    split
    · next hu =>
      -- the table that is found under this name is `t` itself
      have hfound := Database.name_of_find? hfind
      rw [beq_iff_eq.1 hu] at hfound
      rw [← hfound, h] at hfind
      exact hfind
    · rfl

/-- Another handle under one name does not change what is found under the others. -/
theorem Database.find?_replace_of_ne (db : Database) {t : Table} {name : String}
    (hne : t.name ≠ name) : (db.replace t).find? name = db.find? name := by
  rw [Database.find?_replace_eq_map]
  cases hfind : db.find? name with
  | none => rfl
  | some u =>
    have hother : u.name ≠ t.name := by
      rw [Database.name_of_find? hfind]
      exact hne.symm
    rw [Option.map_some, if_neg (mt beq_iff_eq.1 hother)]

/-- A text that is read as one query is run as that query, on the table that the query names. -/
theorem Store.execute_of_parse {circumstances : Nat → Circumstances} {text : String} {q : Query}
    {s : Store} {t t' : Table} {answer : EntrySet} {files' : FileTree}
    (hparse : QuerySet.parse text = .ok [q]) (hfind : s.database.find? q.table = some t)
    (hrun : t.query (circumstances 0) q s.files = .ok (answer, t') files') :
    Store.execute circumstances text s =
      .ok answer { database := s.database.replace t', files := files' } := by
  have hone : Store.queryOne (circumstances 0) q s =
      .ok answer { database := s.database.replace t', files := files' } := by
    simp only [Store.queryOne, hfind, Disk.inStore, hrun]
  have hall : answer.addAll [] = answer := List.append_nil answer
  simp only [Store.execute, hparse, Store.query, bind, EStateM.bind, hone]
  exact congrArg (EStateM.Result.ok · _) hall

/-- Text can be added at the end of a file that can be read, and is read there. -/
theorem FileTree.exists_append {files : FileTree} {path text : String}
    (h : files.readText path = .ok text) (more : String) :
    ∃ files', files.append path more.toUTF8 = .ok files' ∧
      files'.readText path = .ok (text ++ more) := by
  obtain ⟨place, hleads, hfind⟩ := FileTree.readText_eq_ok_iff.1 h
  refine ⟨_, FileTree.append_eq_ok_iff.2 ⟨place, _, hleads, hfind, rfl⟩, ?_⟩
  refine FileTree.readText_eq_ok (hleads.put hleads _) ?_
  rw [FileTree.find?_put_self _ _ hleads.ne_nil]
  simp

end RecordStore

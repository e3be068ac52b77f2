import RecordStore.Proofs.Store.Execution

/-!
# Registered tables

The tables of a database are in the order of their names, and no name is taken twice. So a table is
found under its name exactly if it is registered, and a database is known by which tables it has.

- `Database.IsSorted`, kept by `insert`, `replace` and the opening of a folder;
- `mem_insert`, `mem_replace`: the tables after a change;
- `IsSorted.find?_eq_some_iff`: what is found under a name; `IsSorted.eq_of_mem_iff`: two databases
  with the same tables;
- `Table.load_eq_ok_iff`: the files that a table is loaded from;
- `find?_registerFiles`: of the files of a folder the first with a name is registered under it.
-/

namespace RecordStore

namespace Database

variable {db : Database} {t u : Table} {name : String}

/-- The tables are in the order of their names, none of which occurs twice. -/
def IsSorted (db : Database) : Prop := db.tables.Pairwise (·.name < ·.name)

theorem find?_eq_none_iff : db.find? name = none ↔ ∀ t ∈ db.tables, t.name ≠ name := by
  rw [find?, List.find?_eq_none]
  refine forall₂_congr fun t _ => ?_
  rw [beq_iff_eq]

/-! ## One more table -/

theorem mem_insertTable {ts : List Table} : u ∈ insertTable t ts ↔ u = t ∨ u ∈ ts := by
  induction ts with
  | nil => exact List.mem_cons
  | cons t' ts ih =>
    rw [insertTable]
    split
    · exact List.mem_cons
    · rw [List.mem_cons, ih, List.mem_cons, or_left_comm]

theorem mem_insert : u ∈ (db.insert t).tables ↔ u = t ∨ u ∈ db.tables := mem_insertTable

theorem pairwise_insertTable {ts : List Table} (h : ts.Pairwise (·.name < ·.name))
    (hfree : ∀ u ∈ ts, u.name ≠ t.name) : (insertTable t ts).Pairwise (·.name < ·.name) := by
  induction ts with
  | nil => exact List.pairwise_singleton _ t
  | cons t' ts ih =>
    obtain ⟨hhead, htail⟩ := List.pairwise_cons.1 h
    obtain ⟨hne, hfree⟩ := List.forall_mem_cons.1 hfree
    rw [insertTable]
    split
    · next hlt =>
      refine List.pairwise_cons.2 ⟨?_, h⟩
      exact List.forall_mem_cons.2 ⟨hlt, fun u hu => lt_trans hlt (hhead u hu)⟩
    · next hlt =>
      refine List.pairwise_cons.2 ⟨?_, ih htail hfree⟩
      intro u hu
      rcases mem_insertTable.1 hu with rfl | hu
      · exact lt_of_le_of_ne (not_lt.1 hlt) hne
      · exact hhead u hu

/-- A table may be registered under a free name. -/
theorem IsSorted.insert (h : db.IsSorted) (hfree : db.find? t.name = none) :
    (db.insert t).IsSorted :=
  pairwise_insertTable h (find?_eq_none_iff.1 hfree)

/-! ## Another handle -/

theorem mem_replace :
    u ∈ (db.replace t).tables ↔
      u = t ∧ (∃ old ∈ db.tables, old.name = t.name) ∨ u ∈ db.tables ∧ u.name ≠ t.name := by
  rw [replace, List.mem_map]
  constructor
  · rintro ⟨old, hold, rfl⟩
    split
    · next hname => exact .inl ⟨rfl, old, hold, beq_iff_eq.1 hname⟩
    · next hname => exact .inr ⟨hold, mt beq_iff_eq.2 hname⟩
  · rintro (⟨rfl, old, hold, hname⟩ | ⟨hu, hname⟩)
    · exact ⟨old, hold, if_pos (beq_iff_eq.2 hname)⟩
    · exact ⟨u, hu, if_neg (mt beq_iff_eq.1 hname)⟩

/-- A handle takes the place of the one with its name. -/
theorem IsSorted.replace (h : db.IsSorted) (t : Table) : (db.replace t).IsSorted := by
  refine List.pairwise_map.2 (h.imp fun {a b} hlt => ?_)
  rwa [name_replaced, name_replaced]

/-! ## What is found -/

/-- No two registered tables have one name. -/
theorem IsSorted.eq_of_name_eq (h : db.IsSorted) (ht : t ∈ db.tables) (hu : u ∈ db.tables)
    (hname : t.name = u.name) : t = u := by
  have hnodup : (db.tables.map (·.name)).Nodup := (List.pairwise_map.2 h).nodup
  exact List.inj_on_of_nodup_map hnodup ht hu hname

/-- A table is found under its name exactly if it is registered. -/
theorem IsSorted.find?_eq_some_iff (h : db.IsSorted) :
    db.find? name = some t ↔ t ∈ db.tables ∧ t.name = name := by
  constructor
  · intro hfind
    exact ⟨List.mem_of_find?_eq_some hfind, name_of_find? hfind⟩
  · rintro ⟨hmem, rfl⟩
    cases hfind : db.find? t.name with
    | none => exact absurd rfl (find?_eq_none_iff.1 hfind t hmem)
    | some u =>
      have hu := List.mem_of_find?_eq_some hfind
      rw [h.eq_of_name_eq hmem hu (name_of_find? hfind).symm]

/-- A handle that is registered takes its own place. -/
theorem IsSorted.replace_self (h : db.IsSorted) (ht : t ∈ db.tables) : db.replace t = db := by
  have htables : (db.tables.map fun u => if u.name == t.name then t else u) = db.tables := by
    refine (List.map_congr_left fun u hu => ?_).trans (List.map_id db.tables)
    split
    · next hname => exact (h.eq_of_name_eq hu ht (beq_iff_eq.1 hname)).symm
    · rfl
  rw [Database.replace, htables]

/-- A database is known by its tables. -/
theorem IsSorted.eq_of_mem_iff {db' : Database} (h : db.IsSorted) (h' : db'.IsSorted)
    (hconfig : db.config = db'.config) (hmem : ∀ t, t ∈ db.tables ↔ t ∈ db'.tables) : db = db' := by
  have hantisymm : Std.Antisymm fun a b : Table => a.name < b.name :=
    ⟨fun _ _ hab hba => absurd hab (lt_asymm hba)⟩
  have hirrefl : Std.Irrefl fun a b : Table => a.name < b.name := ⟨fun _ => lt_irrefl _⟩
  have htables : db.tables = db'.tables := List.Pairwise.eq_of_mem_iff h h' hmem
  cases db
  cases db'
  cases hconfig
  cases htables
  rfl

/-! ## Opening a folder -/

/-- The database after a table was registered if its name was free. -/
def registered (db : Database) (t : Table) : Database := (db.register t).toOption.getD db

theorem registered_eq (db : Database) (t : Table) :
    db.registered t = if (db.find? t.name).isSome then db else db.insert t := by
  unfold registered register
  split <;> rfl

theorem IsSorted.registered (h : db.IsSorted) (t : Table) : (db.registered t).IsSorted := by
  rw [registered_eq]
  split
  · exact h
  · next hfree =>
    rw [Bool.not_eq_true, Option.isSome_eq_false_iff, Option.isNone_iff_eq_none] at hfree
    exact h.insert hfree

/-- A table that was registered is found, unless there was one of its name before. -/
theorem IsSorted.find?_registered (h : db.IsSorted) (t : Table) (name : String) :
    (db.registered t).find? name =
      (db.find? name).or (if t.name = name then some t else none) := by
  rw [registered_eq]
  cases hfind : db.find? t.name with
  | some u =>
    show db.find? name = _
    split
    · next hname =>
      rw [← hname, hfind]
      rfl
    · rw [Option.or_none]
  | none =>
    show (db.insert t).find? name = _
    have hfree := find?_eq_none_iff.1 hfind
    refine Option.ext fun u => ?_
    rw [(h.insert hfind).find?_eq_some_iff, mem_insert, Option.or_eq_some_iff,
      h.find?_eq_some_iff, find?_eq_none_iff]
    split
    · next hname =>
      subst hname
      constructor
      · rintro ⟨rfl | hu, hname⟩
        · exact .inr ⟨hfree, rfl⟩
        · exact absurd hname (hfree u hu)
      · rintro (⟨hu, hname⟩ | ⟨-, heq⟩)
        · exact absurd hname (hfree u hu)
        · cases heq
          exact ⟨.inl rfl, rfl⟩
    · next hname =>
      constructor
      · rintro ⟨rfl | hu, hu'⟩
        · exact absurd hu' hname
        · exact .inl ⟨hu, hu'⟩
      · rintro (⟨hu, hu'⟩ | ⟨-, heq⟩)
        · exact ⟨.inr hu, hu'⟩
        · cases heq

end Database

/-! ## The opening of a folder -/

/-- A table is loaded exactly from a text with a header, whose name and schema it gets. -/
theorem Table.load_eq_ok_iff {files files' : FileTree} {path : String} {t : Table} :
    Table.load path files = .ok t files' ↔
      ∃ text header, files.readText path = .ok text ∧ Header.decode text = .ok header ∧
        t = { name := header.name, schema := header.schema, path } ∧ files' = files := by
  constructor
  · intro h
    obtain ⟨text, files₁, hask, hrest⟩ := bind_run_eq_ok_iff.1 h
    obtain ⟨hread, rfl⟩ := Disk.ask_eq_ok_iff.1 hask
    obtain ⟨header, files₂, hexcept, hreturn⟩ := bind_run_eq_ok_iff.1 hrest
    obtain ⟨hdecode, rfl⟩ := Disk.ofExcept_eq_ok_iff.1 hexcept
    cases hreturn
    exact ⟨text, header, hread, mapError_eq_ok_iff.1 hdecode, rfl, rfl⟩
  · rintro ⟨text, header, hread, hdecode, rfl, rfl⟩
    exact bind_run_eq_ok_iff.2 ⟨text, files', Disk.ask_eq_ok_iff.2 ⟨hread, rfl⟩,
      bind_run_eq_ok_iff.2 ⟨header, files',
        Disk.ofExcept_eq_ok_iff.2 ⟨mapError_eq_ok_iff.2 hdecode, rfl⟩, rfl⟩⟩

namespace Store

/-- The table of a file that can be loaded. -/
def loaded? (files : FileTree) (path : String) : Option Table :=
  match Table.load path files with
  | .ok t _ => some t
  | .error _ _ => none

variable {files : FileTree} {db : Database}

theorem loaded?_eq_some_iff {path : String} {t : Table} :
    loaded? files path = some t ↔ Table.load path files = .ok t files := by
  unfold loaded?
  constructor
  · intro h
    split at h
    · next u files' hload =>
      cases h
      obtain ⟨text, header, -, -, -, rfl⟩ := Table.load_eq_ok_iff.1 hload
      exact hload
    · cases h
  · intro h
    rw [h]

theorem registerFiles_cons (path : String) (paths : List String) :
    registerFiles files db (path :: paths) =
      registerFiles files (((loaded? files path).map db.registered).getD db) paths := by
  rw [registerFiles, loaded?]
  cases Table.load path files <;> rfl

theorem config_registerFiles (paths : List String) :
    (registerFiles files db paths).config = db.config := by
  induction paths generalizing db with
  | nil => rfl
  | cons path paths ih =>
    rw [registerFiles_cons, ih]
    cases loaded? files path with
    | none => rfl
    | some t =>
      show (db.registered t).config = _
      rw [Database.registered_eq]
      split <;> rfl

theorem isSorted_registerFiles (files : FileTree) (h : db.IsSorted) (paths : List String) :
    (registerFiles files db paths).IsSorted := by
  induction paths generalizing db with
  | nil => exact h
  | cons path paths ih =>
    rw [registerFiles_cons]
    cases loaded? files path with
    | none => exact ih h
    | some t => exact ih (h.registered t)

/-- Under a name that is free, the first table of that name is registered. -/
theorem find?_registerFiles (files : FileTree) (h : db.IsSorted) (paths : List String)
    (name : String) :
    (registerFiles files db paths).find? name =
      (db.find? name).or ((paths.filterMap (loaded? files)).find? (·.name == name)) := by
  induction paths generalizing db with
  | nil => exact (Option.or_none).symm
  | cons path paths ih =>
    rw [registerFiles_cons, List.filterMap_cons]
    cases loaded? files path with
    | none => exact ih h
    | some t =>
      show (registerFiles files (db.registered t) paths).find? name = _
      rw [ih (h.registered t), h.find?_registered, Option.or_assoc, List.find?_cons]
      by_cases hname : t.name = name
      · rw [if_pos hname, beq_iff_eq.2 hname]
        rfl
      · rw [if_neg hname, beq_eq_false_iff_ne.2 hname]
        rfl

end Store

end RecordStore

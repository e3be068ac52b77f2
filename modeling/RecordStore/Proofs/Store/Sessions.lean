import RecordStore.Proofs.Store.Registry
import RecordStore.Proofs.Store.Step
import RecordStore.Proofs.Table.Refusal

/-!
# Handles in a session

A handle is made or loaded, may be registered in a database and be taken out of it again, and is
asked queries wherever it is. In the meantime other handles, be it on the same file, and anyone else
change the files as they like. Whatever is done, every handle stays the one it is until it is asked.

- `Session`: a store and the handles outside of its database; `Session.act`: what can be done there;
- `Session.follow`: where a handle is after an action;
- `lived_act`: it is still the same one, except for the query that it has answered;
- `live_of_new`: no action brings about the handle of a dropped table.
-/

namespace RecordStore

/-! ## Lookups after a change -/

namespace Database

variable {db : Database} {t u : Table} {name : String}

/-- What is found under the name of a new table, and under other names. -/
theorem find?_insert (hfree : db.find? t.name = none) (name : String) :
    (db.insert t).find? name = if t.name = name then some t else db.find? name := by
  have hne := find?_eq_none_iff.1 hfree
  rw [find?, insert, find?]
  generalize db.tables = ts at hne
  induction ts with
  | nil => by_cases h : t.name = name <;> simp [insertTable, h]
  | cons u ts ih =>
    obtain ⟨hu, hts⟩ := List.forall_mem_cons.1 hne
    rw [insertTable]
    split
    · by_cases h : t.name = name <;> simp [h]
    · rw [List.find?_cons, List.find?_cons, ih hts]
      by_cases hname : u.name = name
      · have hother : ¬t.name = name := fun h => hu (hname.trans h.symm)
        rw [beq_iff_eq.2 hname, if_neg hother, if_neg hother]
      · rw [beq_eq_false_iff_ne.2 hname]

/-- A table that was taken out is not in the way of the others. -/
theorem find?_erase_of_ne (db : Database) {other : String} (hne : other ≠ name) :
    (db.erase other).find? name = db.find? name := by
  rw [find?, erase, List.find?_filter, find?]
  congr 1
  funext t
  rw [Bool.eq_iff_iff, decide_eq_true_iff, beq_iff_eq, bne_iff_ne]
  exact ⟨And.right, fun h => ⟨h ▸ hne.symm, h⟩⟩

theorem find?_erase_self (db : Database) (name : String) : (db.erase name).find? name = none := by
  refine find?_eq_none_iff.2 fun t ht => ?_
  rw [erase, List.mem_filter] at ht
  exact bne_iff_ne.1 ht.2

/-- A handle that has the name of a registered one takes its place. -/
theorem find?_replace_self (h : db.find? name = some t) (hname : u.name = t.name) :
    (db.replace u).find? name = some u := by
  rw [find?_replace_eq_map, h, Option.map_some, if_pos (beq_iff_eq.2 hname.symm)]

end Database

/-! ## Sessions -/

/-- Where a handle is: registered under a name, or in a slot outside of the database. -/
inductive Spot where
  | registered (name : String)
  | held (slot : Nat)
  deriving DecidableEq, Repr

/-- A store, and the handles outside of its database. The slot of one that was given away stays
empty. Handles in a second database are outside of the first as well. -/
structure Session where
  store : Store
  held : List (Option Table) := []

/-- What can be done in a session: a command to the database, making or loading a handle outside of
it, taking a table out of the database or giving a handle to it, asking a handle any query, opening
a folder instead of the database, and anything that others do to the files. -/
inductive Session.Action where
  | command (x : Command)
  | make (config : StoreConfig) (name : String) (schema : Schema)
  | load (path : String)
  | take (name : String)
  | give (slot : Nat)
  | ask (spot : Spot) (c : Circumstances) (q : Query)
  | openFolder (config : StoreConfig)
  | interfere (files : FileTree)

namespace Session

/-- The handle at a spot. -/
def handle? (s : Session) : Spot → Option Table
  | .registered name => s.store.database.find? name
  | .held slot => s.held[slot]?.join

/-- The session with other files. -/
def withFiles (s : Session) (files : FileTree) : Session :=
  { s with store := { s.store with files } }

/-- The session with another handle in the place of the one at a spot. -/
def put (s : Session) (t : Table) : Spot → Session
  | .registered _ =>
    { s with store := { s.store with database := s.store.database.replace t } }
  | .held slot => { s with held := s.held.set slot (some t) }

/-- Keeps a new handle outside of the database. -/
def keep (s : Session) (operation : Disk Table) : Except QueryError EntrySet × Session :=
  match operation s.store.files with
  | .ok t files => (.ok [], { s.withFiles files with held := s.held ++ [some t] })
  | .error e files => (.error e, s.withFiles files)

/-- Carries out an action, and gives the answer and the session afterwards, whether it succeeds or
fails. A handle that cannot be registered is lost, and so are the handles in a database that
another one takes the place of. -/
def act (s : Session) : Action → Except QueryError EntrySet × Session
  | .command x =>
    let (answer, store) := s.store.perform x
    (answer, { s with store })
  | .make config name schema => s.keep (Table.create config name schema)
  | .load path => s.keep (Table.load path)
  | .take name =>
    match s.store.removeTable name with
    | (some t, store) => (.ok [], { store, held := s.held ++ [some t] })
    | (none, store) => (.ok [], { s with store })
  | .give slot =>
    match s.handle? (.held slot) with
    | none => (.ok [], s)
    | some t =>
      match Store.addTable t s.store with
      | .ok _ store => (.ok [], { store, held := s.held.set slot none })
      | .error e store => (.error e, { store, held := s.held.set slot none })
  | .ask spot c q =>
    match s.handle? spot with
    | none => (.ok [], s)
    | some t =>
      let (answer, t, files) := Table.stepFiles (t, s.store.files) (c, q)
      (answer, (s.withFiles files).put t spot)
  | .openFolder config =>
    match Store.openDatabase config s.store.files with
    | .ok database files => (.ok [], { s with store := { database, files } })
    | .error e files => (.error e, s.withFiles files)
  | .interfere files => (.ok [], s.withFiles files)

/-- The spot that the handle at a spot has after an action, if it is not lost. -/
def follow (s : Session) : Action → Spot → Option Spot
  | .take name, .registered name' =>
    some (if name = name' then .held s.held.length else .registered name')
  | .give slot, .held slot' =>
    if slot = slot' then
      (s.handle? (.held slot)).bind fun t =>
        if (s.store.database.find? t.name).isSome then none else some (.registered t.name)
    else some (.held slot')
  | .openFolder config, .registered name =>
    match Store.openDatabase config s.store.files with
    | .ok _ _ => none
    | .error _ _ => some (.registered name)
  | _, spot => some spot

end Session

/-- The query that an action asks the handle at a spot. -/
def Session.Action.asked? (spot : Spot) : Session.Action → Option (Circumstances × Query)
  | .ask spot' c q => if spot' = spot then some (c, q) else none
  | .command (.query c q) => if .registered q.table = spot then some (c, q) else none
  | _ => none

/-! ## One action -/

namespace Session

variable {s : Session} {t : Table} {spot next : Spot}

theorem handle?_put_self (h : s.handle? spot = some t) {u : Table} (hname : u.name = t.name) :
    (s.put u spot).handle? spot = some u := by
  cases spot with
  | registered name => exact Database.find?_replace_self h hname
  | held slot =>
    have hslot : slot < s.held.length := by
      by_contra hlong
      have hnone : s.held[slot]? = none := List.getElem?_eq_none (Nat.not_lt.1 hlong)
      rw [handle?, hnone] at h
      cases h
    simp [put, handle?, hslot]

theorem handle?_put_of_ne {other : Spot} {u v : Table} (hother : s.handle? other = some u)
    (hname : v.name = u.name) (hne : other ≠ spot) :
    (s.put v other).handle? spot = s.handle? spot := by
  cases other with
  | held slot =>
    cases spot with
    | registered name => rfl
    | held slot' =>
      have hslot : slot ≠ slot' := fun h => hne (h ▸ rfl)
      simp only [put, handle?, List.getElem?_set_ne hslot]
  | registered name =>
    cases spot with
    | held slot => rfl
    | registered name' =>
      refine Database.find?_replace_of_ne _ ?_
      rw [hname, Database.name_of_find? hother]
      exact fun h => hne (h ▸ rfl)

theorem lt_of_handle? {slot : Nat} (h : s.handle? (.held slot) = some t) :
    slot < s.held.length := by
  by_contra hlong
  have hnone : s.held[slot]? = none := List.getElem?_eq_none (Nat.not_lt.1 hlong)
  rw [handle?, hnone] at h
  cases h

/-- The handle at a spot is the same after an action, except that it has answered the query that the
action asked it. -/
def Lived (s : Session) (a : Action) (spot next : Spot) (t : Table) : Prop :=
  match a.asked? spot with
  | none => (s.act a).2.handle? next = some t
  | some x =>
    (s.act a).2.handle? next = some (Table.stepFiles (t, s.store.files) x).2.1 ∧
      (s.act a).1 = (Table.stepFiles (t, s.store.files) x).1 ∧
      (s.act a).2.store.files = (Table.stepFiles (t, s.store.files) x).2.2

/-- Making a handle leaves all others where they are. -/
theorem handle?_keep (h : s.handle? spot = some t) (operation : Disk Table) :
    (s.keep operation).2.handle? spot = some t := by
  unfold keep
  split
  · next u files _ =>
    cases spot with
    | registered name => exact h
    | held slot =>
      have hslot := lt_of_handle? h
      simp only [handle?, List.getElem?_append_left hslot]
      exact h
  · exact h

/-- Making a table concerns no handle. -/
theorem handle?_create (h : s.handle? spot = some t) (name : String) (schema : Schema) :
    (s.act (.command (.create name schema))).2.handle? spot = some t := by
  cases spot with
  | held slot => exact h
  | registered name' =>
    have hstep := s.store.step_perform (.create name schema)
    show (s.store.perform (.create name schema)).2.database.find? name' = some t
    generalize s.store.perform (.create name schema) = result at hstep ⊢
    cases hstep with
    | refused _ _ e files grows => exact h
    | created _ _ u files free made =>
      have hname : u.name = name := by rw [made.handle]
      have hne : u.name ≠ name' := by
        rw [hname]
        rintro rfl
        cases free.symm.trans h
      show (s.store.database.insert u).find? name' = some t
      rw [Database.find?_insert (hname ▸ free), if_neg hne]
      exact h

/-- A query to the database concerns the handle that it asks. -/
theorem lived_query (h : s.handle? spot = some t) (c : Circumstances) (q : Query) :
    s.Lived (.command (.query c q)) spot spot t := by
  simp only [Lived, Action.asked?]
  split
  · next hasked =>
    split at hasked
    · cases hasked
    · next hother =>
      cases spot with
      | held slot => exact h
      | registered name =>
        have hstep := s.store.step_perform (.query c q)
        show (s.store.perform (.query c q)).2.database.find? name = some t
        generalize s.store.perform (.query c q) = result at hstep ⊢
        cases hstep with
        | failed _ _ e => exact h
        | answered _ _ u u' answer files found ran =>
          have heffect := Table.query_effect u s.store.files c q
          rw [ran] at heffect
          have hname : u'.name = q.table := heffect.same.1.trans (Database.name_of_find? found)
          have hne : u'.name ≠ name := by
            rw [hname]
            rintro rfl
            exact hother rfl
          exact (Database.find?_replace_of_ne _ hne).trans h
  · next x hasked =>
    split at hasked
    · next hown =>
      cases hasked
      subst hown
      have hname := t.name_stepFiles s.store.files (c, q)
      have hfind : s.store.database.find? q.table = some t := h
      simp only [act, Store.perform, Store.queryOne, hfind, Disk.inStore, Table.stepFiles]
        at hname ⊢
      cases hrun : t.query c q s.store.files with
      | error e files => exact ⟨h, rfl, rfl⟩
      | ok result files =>
        rw [hrun] at hname
        exact ⟨Database.find?_replace_self hfind hname, rfl, rfl⟩
    · cases hasked

/-- A query to a handle concerns the handle that it asks. -/
theorem lived_ask (h : s.handle? spot = some t) (other : Spot) (c : Circumstances) (q : Query) :
    s.Lived (.ask other c q) spot spot t := by
  by_cases hsame : other = spot
  · subst hsame
    have hput := handle?_put_self (s := s.withFiles (Table.stepFiles (t, s.store.files) (c, q)).2.2)
      h (t.name_stepFiles s.store.files (c, q))
    simp only [Lived, Action.asked?, act, if_true, h]
    exact ⟨hput, trivial, by cases other <;> rfl⟩
  · cases hother : s.handle? other with
    | none =>
      simp only [Lived, Action.asked?, act, if_neg hsame, hother]
      exact h
    | some u =>
      have hput := handle?_put_of_ne
        (s := s.withFiles (Table.stepFiles (u, s.store.files) (c, q)).2.2) hother
        (u.name_stepFiles s.store.files (c, q)) hsame
      simp only [Lived, Action.asked?, act, if_neg hsame, hother]
      exact hput.trans h

/-- A handle that is taken out of the database is the one that was registered there. -/
theorem handle?_take (h : s.handle? spot = some t) {name : String}
    (hnext : s.follow (.take name) spot = some next) :
    (s.act (.take name)).2.handle? next = some t := by
  simp only [act, Store.removeTable]
  cases spot with
  | held slot =>
    cases hnext
    have hslot := lt_of_handle? h
    cases s.store.database.find? name with
    | none => exact h
    | some u =>
      simp only [handle?, List.getElem?_append_left hslot]
      exact h
  | registered name' =>
    have hfind : s.store.database.find? name' = some t := h
    by_cases hname : name = name'
    · subst hname
      simp only [follow, if_true] at hnext
      cases hnext
      simp [hfind, handle?]
    · simp only [follow, if_neg hname] at hnext
      cases hnext
      have herase := (Database.find?_erase_of_ne s.store.database hname).trans hfind
      cases s.store.database.find? name <;> exact herase

/-- A slot that is emptied concerns no other handle. -/
theorem handle?_set_of_ne {slot slot' : Nat} (hne : slot ≠ slot') (store : Store) :
    ({ store, held := s.held.set slot none } : Session).handle? (.held slot') =
      s.handle? (.held slot') := by
  simp only [handle?, List.getElem?_set_ne hne]

/-- A handle that is given to the database is registered there under its name, if that is free. -/
theorem handle?_give (h : s.handle? spot = some t) {slot : Nat}
    (hnext : s.follow (.give slot) spot = some next) :
    (s.act (.give slot)).2.handle? next = some t := by
  by_cases hown : spot = .held slot
  · subst hown
    simp only [follow, if_true, h, Option.bind_some] at hnext
    split at hnext
    · cases hnext
    · next hfree =>
      cases hnext
      have hnone : s.store.database.find? t.name = none := by simpa using hfree
      simp only [act, h, Store.addTable, Database.register, if_neg hfree]
      exact (Database.find?_insert hnone t.name).trans (if_pos rfl)
  · have hstays : next = spot := by
      cases spot with
      | registered name => cases hnext; rfl
      | held slot' =>
        have hne : slot ≠ slot' := fun heq => hown (heq ▸ rfl)
        simp only [follow, if_neg hne] at hnext
        cases hnext
        rfl
    subst hstays
    cases hgiven : s.handle? (.held slot) with
    | none => simpa only [act, hgiven] using h
    | some u =>
      simp only [act, hgiven, Store.addTable, Database.register]
      by_cases hfree : (s.store.database.find? u.name).isSome
      · rw [if_pos hfree]
        cases next with
        | registered name => exact h
        | held slot' => exact (handle?_set_of_ne (fun heq => hown (congrArg _ heq.symm)) _).trans h
      · rw [if_neg hfree]
        cases next with
        | held slot' => exact (handle?_set_of_ne (fun heq => hown (congrArg _ heq.symm)) _).trans h
        | registered name =>
          have hnone : s.store.database.find? u.name = none := by simpa using hfree
          have hne : u.name ≠ name := by
            rintro rfl
            cases hnone.symm.trans h
          show (s.store.database.insert u).find? name = some t
          rw [Database.find?_insert hnone, if_neg hne]
          exact h

/-- Opening a folder leaves the handles outside of the database, and all of them if it fails. -/
theorem handle?_openFolder (h : s.handle? spot = some t) {config : StoreConfig}
    (hnext : s.follow (.openFolder config) spot = some next) :
    (s.act (.openFolder config)).2.handle? next = some t := by
  cases spot with
  | held slot =>
    cases hnext
    simp only [act]
    split <;> exact h
  | registered name =>
    simp only [follow] at hnext
    cases hopened : Store.openDatabase config s.store.files with
    | ok database files => simp [hopened] at hnext
    | error e files =>
      simp only [hopened] at hnext
      cases hnext
      simp only [act, hopened]
      exact h

theorem lived_act (h : s.handle? spot = some t) {a : Action} (hnext : s.follow a spot = some next) :
    s.Lived a spot next t := by
  cases a with
  | command x =>
    cases hnext
    cases x with
    | create name schema => exact handle?_create h name schema
    | query c q => exact lived_query h c q
  | make config name schema =>
    cases hnext
    exact handle?_keep h _
  | load path =>
    cases hnext
    exact handle?_keep h _
  | take name => exact handle?_take h hnext
  | give slot => exact handle?_give h hnext
  | ask spot' c q =>
    cases hnext
    exact lived_ask h spot' c q
  | openFolder config => exact handle?_openFolder h hnext
  | interfere files =>
    cases hnext
    exact h

/-! ## New handles -/

/-- A table that is loaded was not dropped. -/
theorem dropped_of_loaded? {files : FileTree} {path : String}
    (h : Store.loaded? files path = some t) : t.dropped = false := by
  obtain ⟨text, header, -, -, rfl, -⟩ := Table.load_eq_ok_iff.1 (Store.loaded?_eq_some_iff.1 h)
  rfl

/-- A table that is found in a folder that was opened was not dropped. -/
theorem dropped_of_openDatabase {config : StoreConfig} {files files' : FileTree} {db : Database}
    {name : String} (hopened : Store.openDatabase config files = .ok db files')
    (h : db.find? name = some t) : t.dropped = false := by
  obtain ⟨_, made, _, hopened⟩ := bind_run_eq_ok_iff.1 hopened
  obtain ⟨names, listed, _, hopened⟩ := bind_run_eq_ok_iff.1 hopened
  cases hopened
  have hsorted : (Database.mk config []).IsSorted := .nil
  rw [Store.find?_registerFiles files' hsorted] at h
  have hmem := List.mem_of_find?_eq_some h
  obtain ⟨path, -, hload⟩ := List.mem_filterMap.1 hmem
  exact dropped_of_loaded? hload

/-- What is found after a handle took the place of another one was found before. -/
theorem isSome_of_handle?_put {other : Spot} {u v : Table} (hother : s.handle? other = some u)
    (hname : v.name = u.name) (h : (s.put v other).handle? spot = some t) :
    (s.handle? spot).isSome := by
  by_cases hsame : other = spot
  · subst hsame
    rw [hother]
    rfl
  · rw [handle?_put_of_ne hother hname hsame] at h
    rw [h]
    rfl

/-- A handle that was not there before an action is the one of a table that was not dropped. -/
theorem live_of_keep {operation : Disk Table}
    (hlive : ∀ files t files', operation files = .ok t files' → t.dropped = false)
    (h : (s.keep operation).2.handle? spot = some t) :
    t.dropped = false ∨ s.handle? spot = some t := by
  unfold keep at h
  split at h
  · next u files' hrun =>
    cases spot with
    | registered name => exact .inr h
    | held slot =>
      simp only [handle?, List.getElem?_append] at h
      split at h
      · exact .inr h
      · rw [List.getElem?_singleton] at h
        split at h
        · cases h
          exact .inl (hlive _ _ _ hrun)
        · cases h
  · exact .inr h

/-- A handle that is there after a command was there before, or its table was just made. -/
theorem live_of_perform {x : Command} (h : (s.act (.command x)).2.handle? spot = some t) :
    t.dropped = false ∨ (s.handle? spot).isSome := by
  cases spot with
  | held slot => exact .inr (Option.isSome_of_eq_some h)
  | registered name =>
    have hstep := s.store.step_perform x
    have hfind : (s.store.perform x).2.database.find? name = some t := h
    generalize s.store.perform x = result at hstep hfind
    cases hstep with
    | refused _ _ e files grows => exact .inr (Option.isSome_of_eq_some hfind)
    | failed c q e => exact .inr (Option.isSome_of_eq_some hfind)
    | answered c q u u' answer files found ran =>
      have hlookup := Database.find?_replace_eq_map s.store.database u' name
      rw [hfind] at hlookup
      obtain ⟨v, hv, -⟩ := Option.map_eq_some_iff.1 hlookup.symm
      exact .inr (Option.isSome_of_eq_some hv)
    | created name' schema u files free made =>
      have hname : u.name = name' := by rw [made.handle]
      rw [Database.find?_insert (hname ▸ free)] at hfind
      split at hfind
      · cases hfind
        rw [made.handle]
        exact .inl rfl
      · exact .inr (Option.isSome_of_eq_some hfind)

/-- Taking a table out of the database makes no handle. -/
theorem exists_of_take {name : String} (h : (s.act (.take name)).2.handle? spot = some t) :
    ∃ old, (s.handle? old).isSome ∧ s.follow (.take name) old = some spot := by
  simp only [act, Store.removeTable] at h
  cases spot with
  | registered name' =>
    have hfind : (s.store.database.erase name).find? name' = some t := by
      cases hname : s.store.database.find? name <;> rw [hname] at h <;> exact h
    have hne : name ≠ name' := by
      rintro rfl
      rw [Database.find?_erase_self] at hfind
      cases hfind
    rw [Database.find?_erase_of_ne _ hne] at hfind
    exact ⟨.registered name', Option.isSome_of_eq_some hfind, by simp only [follow, if_neg hne]⟩
  | held slot =>
    cases hname : s.store.database.find? name with
    | none =>
      rw [hname] at h
      exact ⟨.held slot, Option.isSome_of_eq_some h, rfl⟩
    | some u =>
      simp only [hname, handle?, List.getElem?_append] at h
      split at h
      · exact ⟨.held slot, Option.isSome_of_eq_some h, rfl⟩
      · next hlong =>
        rw [List.getElem?_singleton] at h
        split at h
        · next hslot =>
          have hlast : s.held.length = slot := by omega
          refine ⟨.registered name, Option.isSome_of_eq_some hname, ?_⟩
          simp only [follow, if_true, hlast]
        · cases h

/-- Giving a handle to the database makes no handle. -/
theorem exists_of_give {slot : Nat} (h : (s.act (.give slot)).2.handle? spot = some t) :
    ∃ old, (s.handle? old).isSome ∧ s.follow (.give slot) old = some spot := by
  -- all handles but the one that is given away stay where they are
  have hother (hne : spot ≠ .held slot) (hsome : (s.handle? spot).isSome) :
      ∃ old, (s.handle? old).isSome ∧ s.follow (.give slot) old = some spot := by
    refine ⟨spot, hsome, ?_⟩
    cases spot with
    | registered name => rfl
    | held slot' => exact if_neg fun heq => hne (congrArg _ heq.symm)
  cases hgiven : s.handle? (.held slot) with
  | none =>
    simp only [act, hgiven] at h
    refine hother ?_ (Option.isSome_of_eq_some h)
    rintro rfl
    cases hgiven.symm.trans h
  | some u =>
    simp only [act, hgiven, Store.addTable, Database.register] at h
    have hheld {slot' : Nat} {store : Store}
        (hafter : ({ store, held := s.held.set slot none } : Session).handle? (.held slot') =
          some t) : slot ≠ slot' ∧ (s.handle? (.held slot')).isSome := by
      have hne : slot ≠ slot' := by
        rintro rfl
        simp [handle?, lt_of_handle? hgiven] at hafter
      rw [handle?_set_of_ne hne] at hafter
      exact ⟨hne, Option.isSome_of_eq_some hafter⟩
    by_cases hfree : (s.store.database.find? u.name).isSome
    · rw [if_pos hfree] at h
      cases spot with
      | registered name => exact hother nofun (Option.isSome_of_eq_some h)
      | held slot' =>
        obtain ⟨hne, hsome⟩ := hheld h
        exact hother (by simpa using hne.symm) hsome
    · rw [if_neg hfree] at h
      cases spot with
      | held slot' =>
        obtain ⟨hne, hsome⟩ := hheld h
        exact hother (by simpa using hne.symm) hsome
      | registered name =>
        have hnone : s.store.database.find? u.name = none := by simpa using hfree
        have hfind : (s.store.database.insert u).find? name = some t := h
        rw [Database.find?_insert hnone] at hfind
        split at hfind
        · next hname =>
          refine ⟨.held slot, Option.isSome_of_eq_some hgiven, ?_⟩
          simp only [follow, if_true, hgiven, Option.bind_some, if_neg hfree]
          rw [hname]
        · exact hother nofun (Option.isSome_of_eq_some hfind)

/-- No action brings about the handle of a dropped table: if there was no handle that could be
followed to this spot, the table was not dropped. -/
theorem live_of_new {a : Action} (h : (s.act a).2.handle? spot = some t)
    (hnew : ∀ old, (s.handle? old).isSome → s.follow a old ≠ some spot) : t.dropped = false := by
  have habsent (hstays : s.follow a spot = some spot) : ¬(s.handle? spot).isSome :=
    fun hthere => hnew spot hthere hstays
  cases a with
  | command x => exact (live_of_perform h).resolve_right (habsent rfl)
  | make config name schema =>
    refine (live_of_keep (fun files u files' hrun => ?_) h).resolve_right
      fun hold => habsent rfl (Option.isSome_of_eq_some hold)
    have hcreate := Table.create_effect config name schema files
    rw [hrun] at hcreate
    rw [hcreate.handle]
  | load path =>
    refine (live_of_keep (fun files u files' hrun => ?_) h).resolve_right
      fun hold => habsent rfl (Option.isSome_of_eq_some hold)
    have hloaded : Store.loaded? files path = some u := by rw [Store.loaded?, hrun]
    exact dropped_of_loaded? hloaded
  | take name =>
    obtain ⟨old, hsome, hfollow⟩ := exists_of_take h
    exact absurd hfollow (hnew old hsome)
  | give slot =>
    obtain ⟨old, hsome, hfollow⟩ := exists_of_give h
    exact absurd hfollow (hnew old hsome)
  | ask other c q =>
    simp only [act] at h
    split at h
    · exact absurd (Option.isSome_of_eq_some h) (habsent rfl)
    · next u hother =>
      have hput := isSome_of_handle?_put
        (s := s.withFiles (Table.stepFiles (u, s.store.files) (c, q)).2.2) hother
        (u.name_stepFiles s.store.files (c, q)) h
      exact absurd hput (habsent rfl)
  | openFolder config =>
    simp only [act] at h
    split at h
    · next database files hopened =>
      cases spot with
      | registered name => exact dropped_of_openDatabase hopened h
      | held slot => exact absurd (Option.isSome_of_eq_some h) (habsent rfl)
    · next e files hopened =>
      refine absurd (Option.isSome_of_eq_some h) (habsent ?_)
      cases spot with
      | registered name => simp only [follow, hopened]
      | held slot => rfl
  | interfere files => exact absurd (Option.isSome_of_eq_some h) (habsent rfl)

end Session

end RecordStore

import RecordStore.Proofs.Store.Sessions

/-!
# The life of a handle

A handle refuses a query exactly if it has dropped its table before, whatever was done to the
database, to the other handles and to the files in the meantime. This is said for one query
(`obeys_stepFiles`) and then for all the queries that a handle is asked in the course of a session.

- `Session.history`: the queries that a handle was asked; `Session.handleAfter?`: the handle then;
- `history_obeys`: which of them it has refused, by induction on what is done in the session;
- `dropped_is_final`: the same of a handle that was just made.
-/

namespace RecordStore

namespace Session

variable {s : Session} {t : Table} {spot : Spot}

/-! ## Many actions -/

/-- A query that a handle was asked, its answer, and the files before and after it. -/
structure Asked where
  query : Query
  answer : Except QueryError EntrySet
  before : FileTree
  after : FileTree

/-- The queries that the handle at a spot is asked in the course of actions, wherever it goes. -/
def history (s : Session) (spot : Spot) : List Action → List Asked
  | [] => []
  | a :: actions =>
    let (answer, next) := s.act a
    let asked : Option Asked := (a.asked? spot).map fun (_, query) =>
      { query, answer, before := s.store.files, after := next.store.files }
    let later := match s.follow a spot with
      | none => []
      | some spot => next.history spot actions
    asked.toList ++ later

/-- The handle that was at a spot before actions, as it is after them, if it is not lost. -/
def handleAfter? (s : Session) (spot : Spot) : List Action → Option Table
  | [] => s.handle? spot
  | a :: actions => (s.follow a spot).bind fun spot => (s.act a).2.handleAfter? spot actions

/-- Whether the table was dropped by one of these queries. -/
def Asked.Dropped (asked : List Asked) : Prop := ∃ d ∈ asked, d.query.Drops d.answer

/-- What a handle does with a query: it refuses it if its table was dropped, and else it does
not. -/
def Asked.Obeys (name : String) (dropped : Prop) (d : Asked) : Prop :=
  (dropped → d.answer = .error (.tableDropped name) ∧ d.after = d.before) ∧
    (¬dropped → NotRefused d.answer)

/-- A handle that is asked a query stays where it is. -/
theorem follow_of_asked? {a : Action} {x : Circumstances × Query} (h : a.asked? spot = some x) :
    s.follow a spot = some spot := by
  cases a with
  | command _ => rfl
  | ask _ _ _ => rfl
  | _ => cases h

/-- An action that asks the handle nothing leaves the history to the later ones. -/
theorem history_cons_of_follow {a : Action} {next : Spot} (hasked : a.asked? spot = none)
    (hnext : s.follow a spot = some next) (actions : List Action) :
    s.history spot (a :: actions) = (s.act a).2.history next actions := by
  simp only [history, hasked, hnext]
  rfl

/-- One that asks it a query comes first in the history. -/
theorem history_cons_of_asked? {a : Action} {x : Circumstances × Query}
    (hasked : a.asked? spot = some x) (actions : List Action) :
    s.history spot (a :: actions) =
      ⟨x.2, (s.act a).1, s.store.files, (s.act a).2.store.files⟩ ::
        (s.act a).2.history spot actions := by
  simp only [history, hasked, follow_of_asked? hasked]
  rfl

theorem handleAfter?_cons {a : Action} {next : Spot} (hnext : s.follow a spot = some next)
    (actions : List Action) :
    s.handleAfter? spot (a :: actions) = (s.act a).2.handleAfter? next actions := by
  simp only [handleAfter?, hnext, Option.bind_some]

/-- One query: what a handle does with it, and whether its table is dropped afterwards. -/
theorem obeys_stepFiles (t : Table) (files : FileTree) (x : Circumstances × Query) :
    Asked.Obeys t.name (t.dropped = true)
        ⟨x.2, (Table.stepFiles (t, files) x).1, files, (Table.stepFiles (t, files) x).2.2⟩ ∧
      ((Table.stepFiles (t, files) x).2.1.dropped = true ↔
        t.dropped = true ∨ x.2.Drops (Table.stepFiles (t, files) x).1) := by
  cases hdropped : t.dropped with
  | true =>
    rw [Table.stepFiles_of_dropped hdropped]
    exact ⟨⟨fun _ => ⟨rfl, rfl⟩, fun hlive => absurd rfl hlive⟩, by simp [hdropped]⟩
  | false =>
    obtain ⟨hanswer, dropped, hhandle, hdrops⟩ := Table.stepFiles_of_live hdropped files x
    refine ⟨⟨nofun, fun _ => hanswer⟩, ?_⟩
    rw [hhandle]
    simpa using hdrops

/-- Many actions: what a handle does with the queries that it is asked, and whether its table is
dropped afterwards. By induction on the actions, where the handle at the start may already be one of
a dropped table. -/
theorem history_obeys (h : s.handle? spot = some t) (actions : List Action) :
    (∀ earlier d later, s.history spot actions = earlier ++ d :: later →
        d.Obeys t.name (t.dropped = true ∨ Asked.Dropped earlier)) ∧
      ∀ t', s.handleAfter? spot actions = some t' → t'.name = t.name ∧
        (t'.dropped = true ↔ t.dropped = true ∨ Asked.Dropped (s.history spot actions)) := by
  induction actions generalizing s spot t with
  | nil =>
    constructor
    · intro earlier d later hhistory
      simp [history] at hhistory
    · intro t' hafter
      cases h.symm.trans hafter
      simp [history, Asked.Dropped]
  | cons a actions ih =>
    cases hasked : a.asked? spot with
    | none =>
      cases hnext : s.follow a spot with
      | none => simp [history, handleAfter?, hasked, hnext]
      | some next =>
        have hlived := lived_act h hnext
        simp only [Lived, hasked] at hlived
        rw [history_cons_of_follow hasked hnext, handleAfter?_cons hnext]
        exact ih hlived
    | some x =>
      have hnext := follow_of_asked? (s := s) hasked
      have hlived := lived_act h hnext
      simp only [Lived, hasked] at hlived
      obtain ⟨hhandle, hanswer, hfiles⟩ := hlived
      obtain ⟨hobeys, hdropped⟩ := obeys_stepFiles t s.store.files x
      obtain ⟨hrest, hend⟩ := ih hhandle
      have hname := t.name_stepFiles s.store.files x
      have hhistory := history_cons_of_asked? (s := s) hasked actions
      have hdrops (later : List Asked) : Asked.Dropped
          (⟨x.2, (s.act a).1, s.store.files, (s.act a).2.store.files⟩ :: later) ↔
          x.2.Drops (s.act a).1 ∨ Asked.Dropped later := List.exists_mem_cons_iff ..
      rw [← hanswer, ← hfiles] at hobeys
      rw [← hanswer] at hdropped
      constructor
      · intro earlier d later hsplit
        rw [hhistory] at hsplit
        cases earlier with
        | nil =>
          cases hsplit
          simpa [Asked.Dropped] using hobeys
        | cons d₀ earlier =>
          rw [List.cons_append, List.cons.injEq] at hsplit
          obtain ⟨rfl, hsplit⟩ := hsplit
          have hlater := hrest earlier d later hsplit
          rw [hname, hdropped, or_assoc] at hlater
          rwa [hdrops]
      · intro t' hafter
        rw [handleAfter?_cons hnext] at hafter
        obtain ⟨hname', hflag⟩ := hend t' hafter
        rw [hhistory, hdrops, ← or_assoc, ← hdropped]
        exact ⟨hname'.trans hname, hflag⟩

/-- Every handle in a session starts out as the one of a table that was not dropped. It refuses the
queries that it is asked once it has answered a drop, without touching a file, and never before. Its
flag says whether it has. -/
theorem dropped_is_final :
    (∀ (s : Session) a spot t, (s.act a).2.handle? spot = some t →
      (∀ old, (s.handle? old).isSome → s.follow a old ≠ some spot) → t.dropped = false) ∧
    ∀ (s : Session) spot t, s.handle? spot = some t → t.dropped = false → ∀ actions,
      (∀ earlier d later, s.history spot actions = earlier ++ d :: later →
        ((∃ drop ∈ earlier, drop.query.Drops drop.answer) →
          d.answer = .error (.tableDropped t.name) ∧ d.after = d.before) ∧
        ((¬∃ drop ∈ earlier, drop.query.Drops drop.answer) →
          ∀ name, d.answer ≠ .error (.tableDropped name))) ∧
      ∀ t', s.handleAfter? spot actions = some t' → t'.name = t.name ∧
        (t'.dropped = true ↔
          ∃ drop ∈ s.history spot actions, drop.query.Drops drop.answer) := by
  refine ⟨fun s a spot t h hnew => live_of_new h hnew, ?_⟩
  intro s spot t h hlive actions
  have hobeys := history_obeys h actions
  simp only [hlive, Bool.false_eq_true, false_or] at hobeys
  exact hobeys

/-- The handle of a table that is dropped is taken out of the database, and a table of the same name
is made. -/
theorem dropped_is_final_after_take :
    ∃ (s : Session) (t : Table) (actions : List Action),
      t = { name := "T", schema := ⟨[⟨"A", .integer⟩]⟩, path := "d/T.tbl" } ∧
      s = ⟨⟨{ config := { dataDir := "d" }, tables := [t] },
        ⟨[(["d"], .folder), (["d", "T.tbl"], .file "[T,0:A]".toUTF8)], []⟩⟩, []⟩ ∧
      actions = [.command (.query ⟨"a", 0⟩ (.add "T" [.bare "5"])),
        .command (.query ⟨"", 0⟩ (.drop "T")), .take "T", .command (.create "T" t.schema),
        .ask (.held 0) ⟨"b", 0⟩ (.add "T" [])] ∧
      (s.history (.registered "T") actions).map (·.answer) =
        [.ok [⟨"a", [("A", .int 5)], none⟩], .ok [], .error (.tableDropped "T")] ∧
      (∀ earlier d later, s.history (.registered "T") actions = earlier ++ d :: later →
        ((∃ drop ∈ earlier, drop.query.Drops drop.answer) →
          d.answer = .error (.tableDropped t.name) ∧ d.after = d.before) ∧
        ((¬∃ drop ∈ earlier, drop.query.Drops drop.answer) →
          ∀ name, d.answer ≠ .error (.tableDropped name))) ∧
      (∃ t', s.handleAfter? (.registered "T") actions = some t' ∧ t'.name = t.name ∧
        (t'.dropped = true ↔
          ∃ drop ∈ s.history (.registered "T") actions, drop.query.Drops drop.answer)) ∧
      ∃ t', (s.act (.make {} "U" t.schema)).2.handle? (.held 0) = some t' ∧ t'.dropped = false := by
  refine ⟨_, _, _, rfl, rfl, rfl, by decide +kernel, ?_, ?_, ?_⟩
  · exact (dropped_is_final.2 _ _ _ rfl rfl _).1
  · refine ⟨⟨"T", ⟨[⟨"A", .integer⟩]⟩, "d/T.tbl", true⟩, by decide +kernel, ?_⟩
    exact (dropped_is_final.2 _ _ _ rfl rfl _).2 _ (by decide +kernel)
  · refine ⟨⟨"U", ⟨[⟨"A", .integer⟩]⟩, "./data/U.tbl", false⟩, ?_⟩
    refine (and_iff_left_of_imp fun hmade => ?_).2 (by decide +kernel)
    refine dropped_is_final.1 _ _ _ _ hmade fun old hsome hfollow => ?_
    cases hfollow
    cases hsome

end Session

end RecordStore

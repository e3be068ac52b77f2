import RecordStore.Proofs.Store.Separation
import RecordStore.Proofs.Table.Locality

/-!
# Queries on different tables commute

A query depends on the file of its table alone, and a query on another table leaves that file as it
is. So it does not matter which of the two runs first.

- `Orderly.queryOne_local`: a query does the same before and after one on another table;
- `Store.ChangedAlike.comm`: what two such queries have done does not tell which was the first;
- `query_comm`: both for all stores that commands can lead to.
-/

namespace RecordStore

namespace Database

variable {db : Database} {t u : Table}

/-- Two handles with different names may take their places in either order. -/
theorem replace_comm (hne : t.name ≠ u.name) :
    (db.replace t).replace u = (db.replace u).replace t := by
  simp only [replace, List.map_map]
  refine congrArg (Database.mk db.config) (List.map_congr_left fun v _ => ?_)
  show (if (if v.name == t.name then t else v).name == u.name then u else _) =
    if (if v.name == u.name then u else v).name == t.name then t else _
  simp only [name_replaced]
  by_cases ht : v.name = t.name
  · simp [ht, hne]
  · simp [ht]

end Database

variable {s s₁ s₂ : Store} {q r : Query} {c d d' : Circumstances} {a b : EntrySet}

/-- A query on a table that was not dropped has given the same answer on two stores, the same handle
has taken the place of the old one in both, and the same was written to both. -/
structure Store.ChangedAlike (s s' : Store) (name : String) (a : EntrySet) (after : Store)
    (b : EntrySet) (after' : Store) : Prop where
  answers : a.SameButTimes b
  handle : ∃ t : Table, t.name = name ∧ after.database = s.database.replace t ∧
    after'.database = s'.database.replace t
  written : ∃ t ∈ s.database.tables, t.name = name ∧ t.dropped = false ∧
    ∃ own, s.files.HasFile t.path own ∧
      t.PatchedAlike own s.files s'.files after.files after'.files

namespace Orderly

/-- After a query, the file of another table is the same. -/
theorem sameFile (h : Orderly s) (hmixes : ¬s.database.config.MixesTemporary) {t t' u : Table}
    (ht : t ∈ s.database.tables) (hlive : t.dropped = false) {files' : FileTree}
    (heffect : t.Effect s.files t' files') (hu : u ∈ s.database.tables) (hne : u.name ≠ t.name)
    (hulive : u.dropped = false) {own : Place} (hown : s.files.HasFile u.path own) :
    u.SameFile own s.files files' :=
  ⟨heffect.sameFolders, hown, h.kept_of_query hmixes ht hlive heffect hu hne hulive hown⟩

/-- A query does the same before and after one on another table. -/
theorem queryOne_local (h : Orderly s) (hmixes : ¬s.database.config.MixesTemporary)
    (hne : q.table ≠ r.table) (hq : Store.queryOne c q s = .ok a s₁) (hid : d'.newId = d.newId) :
    BothOrNeither (s.ChangedAlike s₁ r.table) (Store.queryOne d r s) (Store.queryOne d' r s₁) := by
  have heffect := Store.queryOne_effect c q s
  rw [hq] at heffect
  obtain ⟨t, t', files', hfound, hrun, rfl⟩ := heffect
  obtain ⟨ht, hname⟩ := h.sorted.find?_eq_some_iff.1 hfound
  have heffect := Table.query_effect t s.files c q
  rw [hrun] at heffect
  have hname' : t'.name = q.table := heffect.same.1.trans hname
  have hfind : (s.database.replace t').find? r.table = s.database.find? r.table :=
    s.database.find?_replace_of_ne (hname' ▸ hne)
  unfold Store.queryOne
  rw [hfind]
  cases hu : s.database.find? r.table with
  | none => exact .failed _ _ _ _
  | some u =>
    obtain ⟨hmem, huname⟩ := h.sorted.find?_eq_some_iff.1 hu
    cases hlive : u.dropped with
    | true =>
      -- a dropped table refuses the query in both stores
      have hrefused : ∀ d files, u.query d r files = .error (.tableDropped u.name) files := by
        intro d files
        rw [Table.query, hlive]
        rfl
      simp only [Disk.inStore, hrefused]
      exact .failed _ _ _ _
    | false =>
      obtain ⟨own, hown⟩ := h.file u hmem hlive
      have hsame := h.sameFile hmixes ht (Table.dropped_of_query hrun) heffect hmem
        (by rw [huname, hname]; exact hne.symm) hlive hown
      have hlocal := Table.query_local hsame hid r
      have heffect' := Table.query_effect u s.files d r
      unfold Disk.inStore
      dsimp only
      generalize u.query d r s.files = result, u.query d' r files' = result' at hlocal heffect' ⊢
      cases hlocal with
      | failed e e' after after' => exact .failed _ _ _ _
      | succeeded answer answer' after after' related =>
        obtain ⟨⟨hanswer, hpatched⟩, hhandle⟩ := related
        refine .succeeded _ _ _ _ ⟨hanswer, ⟨answer.2, ?_, rfl, ?_⟩, u, hmem, huname, hlive, own,
          hown, hpatched⟩
        · exact heffect'.same.1.trans huname
        · rw [hhandle]

end Orderly

/-- Two queries on different tables, each run before and after the other, leave one and the same
store. -/
theorem Store.ChangedAlike.comm (h : Orderly s) (hmixes : ¬s.database.config.MixesTemporary)
    {name name' : String} (hne : name ≠ name') {a a' b b' : EntrySet} {u v : Store}
    (hq : s.ChangedAlike s₂ name a s₁ a' v) (hr : s.ChangedAlike s₁ name' b s₂ b' u) :
    u.database = v.database ∧ ∀ p, u.files.find? p = v.files.find? p := by
  constructor
  · obtain ⟨t, rfl, hfirst, hlast⟩ := hq.handle
    obtain ⟨t', rfl, hfirst', hlast'⟩ := hr.handle
    rw [hlast', hfirst, hlast, hfirst']
    exact Database.replace_comm hne
  · obtain ⟨t, ht, htname, htlive, own, hown, w, hw, hw', hwrites⟩ := hq.written
    obtain ⟨t', ht', htname', htlive', own', hown', w', hw₂, hw₂', hwrites'⟩ := hr.written
    have hpath := h.path t ht
    have hpath' := h.path t' ht'
    refine hw.comm hw₂ hw₂' hw' ?_
    intro p n m hn hm
    -- the places of the two tables are different, and of the temporary files nothing is left
    rcases hwrites p n hn with rfl | ⟨htemporary, rfl⟩
    · rcases hwrites' p m hm with rfl | ⟨htemporary', -⟩
      · have heq := h.apart t ht t' ht' htlive htlive' p hown hown'
        exact absurd (htname.symm.trans (heq ▸ htname')) hne
      · exact absurd (hpath ▸ hown.1)
          (Table.notLeadsTo_temporaryPath hmixes hpath' hown'.1 htemporary' t.name)
    · rcases hwrites' p m hm with rfl | ⟨-, rfl⟩
      · exact absurd (hpath' ▸ hown'.1)
          (Table.notLeadsTo_temporaryPath hmixes hpath hown.1 htemporary t'.name)
      · rfl

/-- An extension that does not end as `tmp` does is none of those that mix up temporary files and
table files. -/
theorem StoreConfig.not_mixesTemporary {config : StoreConfig}
    (h : ¬"tmp".toList <:+ config.extension.toList) : ¬config.MixesTemporary := by
  intro hmixes
  have htmp : "tmp".toList <:+ '.' :: config.extension.toList ++ ".tmp".toList :=
    ⟨'.' :: config.extension.toList ++ ['.'], by simp⟩
  rcases List.suffix_or_suffix_of_suffix htmp hmixes with hend | hend
  · rcases List.suffix_cons_iff.1 hend with heq | hend
    · exact absurd (List.cons.inj heq).1 (by decide)
    · exact h hend
  · -- the extension with its dot is no end of three letters
    obtain ⟨before, hbefore⟩ := hend
    have hmem : '.' ∈ "tmp".toList := by rw [← hbefore]; simp
    exact absurd hmem (by decide)

/-- Two queries on different tables that both succeed do so in either order, with the same answers
but for the times, and leave the same handles and the same files. If one fails, the other finds the
store as it was, and what the other does is not undone if it runs first. -/
theorem query_comm {config : StoreConfig} (hext : ¬"tmp".toList <:+ config.extension.toList)
    {files : FileTree} (htree : files.IsTree) (commands : List Command) {q r : Query}
    (hne : q.table ≠ r.table) {cs ds : Nat → Circumstances} (hq : (ds 1).newId = (cs 0).newId)
    (hr : (cs 1).newId = (ds 0).newId) :
    let s := Store.after ⟨{ config }, files⟩ commands
    (∀ a b s₁ s₂, Store.queryOne (cs 0) q s = .ok a s₁ → Store.queryOne (ds 0) r s = .ok b s₂ →
      ∃ a' b' u v, Store.query cs [q, r] s = .ok (a ++ b') u ∧
        Store.query ds [r, q] s = .ok (b ++ a') v ∧ a.SameButTimes a' ∧ b.SameButTimes b' ∧
        u.database = v.database ∧ ∀ p, u.files.find? p = v.files.find? p) ∧
    ∀ e s₁, Store.queryOne (cs 0) q s = .error e s₁ →
      (∀ c, Store.queryOne c r s₁ = Store.queryOne c r s) ∧
      ∀ b s₂, Store.queryOne (ds 0) r s = .ok b s₂ →
        ∃ e', Store.query ds [r, q] s = .error e' s₂ := by
  intro s
  obtain ⟨h, hconfig⟩ := orderly_after (StoreConfig.not_mixesTemporary hext) htree commands
  have hmixes : ¬s.database.config.MixesTemporary :=
    hconfig ▸ StoreConfig.not_mixesTemporary hext
  constructor
  · intro a b s₁ s₂ hrunq hrunr
    -- each query is run after the other one as it was run before
    obtain ⟨b', u, hrunr', hr'⟩ :=
      (h.queryOne_local hmixes hne hrunq hr).exists_of_ok hrunr
    obtain ⟨a', v, hrunq', hq'⟩ :=
      (h.queryOne_local hmixes hne.symm hrunr hq).exists_of_ok hrunq
    refine ⟨a', b', u, v, ?_, ?_, hq'.answers, hr'.answers, hq'.comm h hmixes hne hr'⟩
    · simp [Store.query, bind, EStateM.bind, pure, EStateM.pure, hrunq, hrunr', EntrySet.addAll]
    · simp [Store.query, bind, EStateM.bind, pure, EStateM.pure, hrunr, hrunq', EntrySet.addAll]
  · intro e s₁ hfail
    have heffect := Store.queryOne_effect (cs 0) q s
    rw [hfail] at heffect
    have hs : s₁ = s := heffect
    refine ⟨fun c => by rw [hs], ?_⟩
    intro b s₂ hrunr
    have hlocal := h.queryOne_local hmixes hne.symm hrunr hq
    rw [hfail] at hlocal
    cases hrun : Store.queryOne (ds 1) q s₂ with
    | ok a' v =>
      rw [hrun] at hlocal
      cases hlocal
    | error e' v =>
      have heffect := Store.queryOne_effect (ds 1) q s₂
      rw [hrun] at heffect
      have hv : v = s₂ := heffect
      subst hv
      exact ⟨e', by simp [Store.query, bind, EStateM.bind, hrunr, hrun]⟩

/-- One table loses its only entry and the other its file; and a query for an entry that is not
there does not keep the other table from getting one. -/
theorem query_comm_remove_and_drop :
    ¬"tmp".toList <:+ ("tbl" : String).toList ∧ FileTree.IsTree ⟨[], []⟩ ∧
      let s := Store.after ⟨{ config := { dataDir := "d" } }, ⟨[], []⟩⟩
        [.create "T" ⟨[⟨"v", .integer⟩]⟩, .create "U" ⟨[⟨"v", .integer⟩]⟩,
          .query ⟨"a", 0⟩ (.add "T" [.bare "1"])]
      let q : Query := .remove "T" (.dependencies [])
      let r : Query := .drop "U"
      (∃ a s₁, Store.queryOne ⟨"b", 3⟩ q s = .ok a s₁ ∧
        ∃ b s₂, Store.queryOne ⟨"b", 4⟩ r s = .ok b s₂ ∧
          ∃ a' b' u v, Store.query (fun _ => ⟨"b", 3⟩) [q, r] s = .ok (a ++ b') u ∧
            Store.query (fun _ => ⟨"b", 4⟩) [r, q] s = .ok (b ++ a') v ∧ a.SameButTimes a' ∧
            b.SameButTimes b' ∧ u.database = v.database ∧
            ∀ p, u.files.find? p = v.files.find? p) ∧
      ∃ e s₁, Store.queryOne ⟨"b", 3⟩ (.get "T" (.entry "b")) s = .error e s₁ ∧
        ∃ b s₂, Store.queryOne ⟨"b", 4⟩ (.add "U" [.bare "2"]) s = .ok b s₂ ∧
          ∃ e', Store.query (fun _ => ⟨"b", 4⟩) [.add "U" [.bare "2"], .get "T" (.entry "b")] s =
            .error e' s₂ := by
  have hext : ¬"tmp".toList <:+ ("tbl" : String).toList := by decide
  refine ⟨hext, FileTree.isTree_empty, ?_, ?_⟩
  · refine exists_of_succeeds (p := fun _ _ => true) (by decide +kernel) fun a s₁ hrun _ => ?_
    refine exists_of_succeeds (p := fun _ _ => true) (by decide +kernel) fun b s₂ hrun' _ => ?_
    exact (@query_comm { dataDir := "d" } hext _ FileTree.isTree_empty _ _ _ (by decide)
      (fun _ => ⟨"b", 3⟩) (fun _ => ⟨"b", 4⟩) rfl rfl).1 a b s₁ s₂ hrun hrun'
  · refine exists_of_failed (by decide +kernel) fun e s₁ hrun => ?_
    refine exists_of_succeeds (p := fun _ _ => true) (by decide +kernel) fun b s₂ hrun' _ => ?_
    exact ((@query_comm { dataDir := "d" } hext _ FileTree.isTree_empty _ _ _ (by decide)
      (fun _ => ⟨"b", 3⟩) (fun _ => ⟨"b", 4⟩) rfl rfl).2 e s₁ hrun).2 b s₂ hrun'

end RecordStore

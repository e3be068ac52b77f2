import RecordStore.Proofs.Store.Step

/-!
# Batches

A batch is read to its end before any query of it is run. Then its queries are run one after the
other up to the first that fails, and what was done before that one stays done. So a batch is the
same as its parts in a row, wherever it is cut in two.

- `Query.fault?`: why a statement is no query; `QuerySet.parse_of_fault`,
  `QuerySet.exists_parse_of_no_fault`: a batch is read exactly if every statement of it is;
- `Store.query_append`: a batch is cut in two anywhere;
- `Store.query_eq_error_iff`: where a batch stops, and what it leaves;
- `execute_batch`: both for a text.
-/

namespace RecordStore

/-! ## Reading -/

/-- Why a text is no query, if it is none. -/
def Query.fault? (text : String) : Option ParseError :=
  match Query.parse text with
  | .ok _ => none
  | .error e => some e

theorem Query.fault?_eq_none_iff {text : String} :
    fault? text = none ↔ ∃ q, Query.parse text = .ok q := by
  unfold fault?
  split
  · next q hq => simp [hq]
  · next e he => simp [he]

theorem Query.fault?_eq_some_iff {text : String} {e : ParseError} :
    fault? text = some e ↔ Query.parse text = .error e := by
  unfold fault?
  split
  · next q hq => simp [hq]
  · next e' he => simp [he]

namespace QuerySet

variable {text : String}

/-- A batch with a statement that is no query is refused for the first such statement. -/
theorem parse_of_fault {e : ParseError} (h : (statements text).findSome? Query.fault? = some e) :
    parse text = .error e := by
  obtain ⟨before, statement, after, hstatements, hfault, hbefore⟩ := List.findSome?_eq_some_iff.1 h
  refine mapM_eq_error_iff.2 ⟨before, statement, after, hstatements, ?_,
    Query.fault?_eq_some_iff.1 hfault⟩
  exact fun t ht => Query.fault?_eq_none_iff.1 (hbefore t ht)

/-- A batch without such a statement is read. -/
theorem exists_parse_of_no_fault (h : (statements text).findSome? Query.fault? = none) :
    ∃ qs, parse text = .ok qs := by
  cases hparse : parse text with
  | ok qs => exact ⟨qs, rfl⟩
  | error e =>
    obtain ⟨before, statement, after, hstatements, -, hfault⟩ := mapM_eq_error_iff.1 hparse
    have hnone := List.findSome?_eq_none_iff.1 h statement (by simp [hstatements])
    rw [Query.fault?_eq_some_iff.2 hfault] at hnone
    cases hnone

end QuerySet

/-! ## Running -/

namespace Store

variable {circumstances : Nat → Circumstances} {s s' : Store}

/-- A batch does what its first queries do, and then what the others do in the circumstances that
are left. -/
theorem query_append (circumstances : Nat → Circumstances) (qs rs : QuerySet) :
    query circumstances (qs ++ rs) = do
      let entries ← query circumstances qs
      let others ← query (fun n => circumstances (n + qs.length)) rs
      return entries.addAll others := by
  induction qs generalizing circumstances with
  | nil =>
    show query circumstances rs = _
    simp [query, EntrySet.addAll]
  | cons q qs ih =>
    have hassoc : ∀ a b c : EntrySet, (a.addAll b).addAll c = a.addAll (b.addAll c) :=
      List.append_assoc
    show (queryOne (circumstances 0) q >>= fun entries =>
      query (fun n => circumstances (n + 1)) (qs ++ rs) >>= fun others =>
        pure (entries.addAll others)) = _
    rw [ih]
    simp only [query, bind_assoc, pure_bind, hassoc]
    rfl

/-- A query is the first of a batch to fail if those before it succeed. The batch then fails as that
query does and leaves what the others have left; it fails in no other way. -/
theorem query_eq_error_iff {qs : QuerySet} {e : QueryError} :
    query circumstances qs s = .error e s' ↔
      ∃ before q after entries, qs = before ++ q :: after ∧
        query circumstances before s = .ok entries s' ∧
        queryOne (circumstances before.length) q s' = .error e s' := by
  induction qs generalizing circumstances s with
  | nil =>
    constructor
    · intro h
      cases h
    · rintro ⟨before, q, after, entries, heq, -⟩
      exact absurd heq (by simp)
  | cons q qs ih =>
    have hquery : ∀ rest : QuerySet, query circumstances (q :: rest) =
        queryOne (circumstances 0) q >>= fun entries =>
          query (fun n => circumstances (n + 1)) rest >>= fun others =>
            pure (entries.addAll others) := fun _ => rfl
    have heffect := queryOne_effect (circumstances 0) q s
    rw [hquery, bind_run_eq_error_iff]
    constructor
    · rintro (hfail | ⟨answer, t, hanswer, hrest⟩)
      · rw [hfail] at heffect
        have hs : s' = s := heffect
        subst hs
        exact ⟨[], q, qs, [], rfl, rfl, hfail⟩
      · obtain hrest | ⟨others, u, -, hpure⟩ := bind_run_eq_error_iff.1 hrest
        · obtain ⟨before, q', after, entries, rfl, hbefore, hfail⟩ := ih.1 hrest
          refine ⟨q :: before, q', after, answer.addAll entries, rfl, ?_, hfail⟩
          rw [hquery]
          exact bind_run_eq_ok_iff.2
            ⟨answer, t, hanswer, bind_run_eq_ok_iff.2 ⟨entries, s', hbefore, rfl⟩⟩
        · cases hpure
    · rintro ⟨before, q', after, entries, heq, hbefore, hfail⟩
      cases before with
      | nil =>
        cases heq
        cases hbefore
        exact .inl hfail
      | cons p before =>
        cases heq
        rw [hquery] at hbefore
        obtain ⟨answer, t, hanswer, hrest⟩ := bind_run_eq_ok_iff.1 hbefore
        obtain ⟨others, u, hothers, hpure⟩ := bind_run_eq_ok_iff.1 hrest
        cases hpure
        refine .inr ⟨answer, t, hanswer, bind_run_eq_error_iff.2 (.inl ?_)⟩
        exact ih.2 ⟨before, q', after, others, rfl, hothers, hfail⟩

theorem execute_eq_of_parse {text : String} {qs : QuerySet} (h : QuerySet.parse text = .ok qs) :
    execute circumstances text = query circumstances qs := by
  funext s
  rw [execute, h]

end Store

/-- A text with a statement that is no query is refused for the first such statement, and nothing of
it is run. Any other text is run query by query. Cut in two anywhere, its queries do what the first
part does and then, if that succeeds, what the second does in the store that the first has left, and
the answers stand one after the other. So the batch fails exactly as the first of its queries that
fails, among them one that names a table that is not registered; what the queries before it did
stays, and none of those behind it is run. -/
theorem execute_batch (circumstances : Nat → Circumstances) (text : String) (s : Store) :
    (∀ e, (QuerySet.statements text).findSome? Query.fault? = some e →
      Store.execute circumstances text s = .error (.parse e) s) ∧
    ((QuerySet.statements text).findSome? Query.fault? = none →
      ∃ qs, QuerySet.parse text = .ok qs) ∧
    ∀ qs, QuerySet.parse text = .ok qs →
      List.Forall₂ (fun t q => Query.parse t = .ok q) (QuerySet.statements text) qs ∧
      Store.execute circumstances text s = Store.query circumstances qs s ∧
      (∀ before after, qs = before ++ after →
        Store.query circumstances qs s =
          match Store.query circumstances before s with
          | .error e s₁ => .error e s₁
          | .ok entries s₁ =>
            match Store.query (fun n => circumstances (n + before.length)) after s₁ with
            | .error e s₂ => .error e s₂
            | .ok others s₂ => .ok (entries ++ others) s₂) ∧
      (∀ e s', Store.query circumstances qs s = .error e s' ↔
        ∃ before q after entries, qs = before ++ q :: after ∧
          Store.query circumstances before s = .ok entries s' ∧
          Store.queryOne (circumstances before.length) q s' = .error e s') ∧
      ∀ before q after entries s', qs = before ++ q :: after →
        Store.query circumstances before s = .ok entries s' →
        s'.database.find? q.table = none →
        Store.query circumstances qs s = .error (.tableNotFound q.table) s' := by
  refine ⟨?_, QuerySet.exists_parse_of_no_fault, ?_⟩
  · intro e hfault
    rw [Store.execute, QuerySet.parse_of_fault hfault]
  · intro qs hparse
    refine ⟨mapM_eq_ok_iff.1 hparse, by rw [Store.execute_eq_of_parse hparse], ?_, ?_, ?_⟩
    · rintro before after rfl
      rw [Store.query_append]
      simp only [bind, EStateM.bind]
      cases Store.query circumstances before s with
      | error e s₁ => rfl
      | ok entries s₁ =>
        dsimp only
        cases Store.query (fun n => circumstances (n + before.length)) after s₁ <;> rfl
    · exact fun e s' => Store.query_eq_error_iff
    · intro before q after entries s' hqs hbefore hfind
      refine Store.query_eq_error_iff.2 ⟨before, q, after, entries, hqs, hbefore, ?_⟩
      rw [Store.queryOne, hfind]

/-- A statement that is no query behind one that would have changed the table, and a query on the
table behind one that dropped it. -/
theorem execute_batch_after_drop :
    ∃ (s : Store) (t : Table),
      t = { name := "T", schema := ⟨[⟨"v", .integer⟩]⟩, path := "T.tbl" } ∧
      s = ⟨{ config := { dataDir := "" }, tables := [t] },
        ⟨[(["T.tbl"], .file "[T,0:v]".toUTF8)], []⟩⟩ ∧
      Store.execute (fun _ => ⟨"a", 0⟩) "ADD [1] IN T; ADD IN T; DROP" s =
        .error (.parse (.malformedValueList "expected '[', found IN")) s ∧
      ∃ s', Store.query (fun _ => ⟨"a", 0⟩) [.add "T" [.bare "1"], .drop "T"] s =
          .ok [{ id := "a", data := [("v", .int 1)] }] s' ∧
        s'.database.tables = [{ t with dropped := true }] ∧ s'.files.isFile t.path = false ∧
        Store.execute (fun _ => ⟨"a", 0⟩) "ADD [1] IN T; DROP T\nGET IN T; GET IN U" s =
          .error (.tableDropped "T") s' := by
  let t : Table := { name := "T", schema := ⟨[⟨"v", .integer⟩]⟩, path := "T.tbl" }
  let s : Store := ⟨{ config := { dataDir := "" }, tables := [t] },
    ⟨[(["T.tbl"], .file "[T,0:v]".toUTF8)], []⟩⟩
  refine ⟨s, t, rfl, rfl, (execute_batch _ _ _).1 _ (by decide +kernel), ?_⟩
  have hparse : QuerySet.parse "ADD [1] IN T; DROP T\nGET IN T; GET IN U" =
      .ok [.add "T" [.bare "1"], .drop "T", .get "T" .all, .get "U" .all] := by cbv
  obtain ⟨-, hrun, -, hfails, -⟩ := (execute_batch (fun _ => ⟨"a", 0⟩) _ s).2.2 _ hparse
  -- what the first two queries leave is computed, the rest follows from it
  obtain ⟨entries, s', hbefore, hentries, htables, hgone⟩ := exists_of_succeeds
    (p := fun entries s' => decide (entries = [{ id := "a", data := [("v", .int 1)] }] ∧
      s'.database.tables = [{ t with dropped := true }] ∧ s'.files.isFile t.path = false))
    (r := Store.query (fun _ => ⟨"a", 0⟩) [.add "T" [.bare "1"], .drop "T"] s)
    (by decide +kernel) fun _ _ _ h => of_decide_eq_true h
  subst hentries
  have hfind : s'.database.find? "T" = some { t with dropped := true } := by
    rw [Database.find?, htables]
    rfl
  refine ⟨s', hbefore, htables, hgone, hrun.trans ?_⟩
  refine (hfails _ _).2 ⟨_, .get "T" .all, [.get "U" .all], _, rfl, hbefore, ?_⟩
  show Store.queryOne ⟨"a", 0⟩ (.get "T" .all) s' = _
  rw [Store.queryOne, Query.table, hfind]
  rfl

end RecordStore

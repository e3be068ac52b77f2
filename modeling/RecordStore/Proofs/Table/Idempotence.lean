import RecordStore.Proofs.Table.Splicing

/-!
# Setting values again

A query that sets values may change which entries satisfy its own conditions, and it writes records
in the spelling of the store, wherever they came from. Still the second run of it changes nothing:
it selects no record but those that the first one has written, and it writes them as they are.

- `Entry.overwrite_overwrite`: the same values, set again, are there already;
- `Layout.overwrite`: the parts of the file after its chosen records are overwritten;
- `marked_mark_update`: what is chosen afterwards was chosen before;
- `replaceContent_again`: writing the content that a file has leaves all files as they are;
- `query_set_idempotent`: the second run of a query that sets values, and one that sets none.
-/

namespace RecordStore

/-! ## One entry -/

namespace Entry

/-- Values that are set twice are the ones that are set once. -/
theorem overwrite_overwrite (e : Entry) (values : List Literal) :
    (e.overwrite values).overwrite values = e.overwrite values := by
  simp only [overwrite, mk.injEq, true_and, and_true]
  generalize e.data = data
  induction values generalizing data with
  | nil => simp
  | cons l values ih =>
    cases data with
    | nil => rfl
    | cons p data =>
      simp only [List.zip_cons_cons, List.map_cons, ih, List.cons.injEq, and_true, Prod.mk.injEq,
        true_and, storageType_overwrite]
      -- the value that was set is the one that the literal stands for in its column
      split
      · rfl
      · cases l.coerce? p.2.storageType <;> rfl

/-- Wildcards leave every value of a stored entry as it is. -/
theorem IsStored.overwrite_wildcards {schema : Schema} {e : Entry} (h : e.IsStored schema)
    {values : List Literal} (hlength : values.length = schema.columns.length)
    (hwild : ∀ l ∈ values, l.isWildcard = true) : e.overwrite values = e := by
  have hdata : e.data.length ≤ values.length := by
    rw [hlength, ← h.fits, Entry.columns, List.length_map]
  have hsame : (e.overwrite values).data = e.data := by
    show (e.data.zip values).map _ = _
    conv_rhs => rw [← List.map_fst_zip hdata]
    refine List.map_congr_left fun x hx => ?_
    obtain ⟨⟨column, old⟩, l⟩ := x
    show (column, ite _ _ _) = (column, old)
    rw [if_pos (hwild l (List.of_mem_zip hx).2)]
  rw [← h.stored_eq]
  exact congrArg (fun data => Entry.mk e.id data none) hsame

end Entry

/-! ## The records that are chosen -/

variable {schema : Schema}

namespace Choice

variable {f : Stored schema → Stored schema}

/-- The records with others in the place of the chosen ones. -/
def update (c : Choice) (f : Stored schema → Stored schema) (rows : List (Stored schema)) :
    List (Stored schema) :=
  (c.mark rows).map fun (s, mark) => if mark then f s else s

theorem map_zip_unmarked (f : Stored schema → Stored schema) (rows : List (Stored schema)) :
    (rows.zip ((rows.map Stored.entry).map fun _ => false)).map
      (fun (s, mark) => if mark then f s else s) = rows := by
  induction rows with
  | nil => rfl
  | cons s rows ih => exact congrArg (s :: ·) ih

theorem map_id_update (hid : ∀ s, (f s).entry.id = s.entry.id) (c : Choice)
    (rows : List (Stored schema)) :
    (c.update f rows).map (·.entry.id) = rows.map (·.entry.id) := by
  conv_rhs => rw [← c.map_mark rows]
  rw [update, List.map_map, List.map_map]
  refine List.map_congr_left fun x _ => ?_
  obtain ⟨s, mark⟩ := x
  cases mark with
  | false => rfl
  | true => exact hid s

/-- Records that are chosen after the chosen ones were replaced are among those that were put in
their place. -/
theorem marked_mark_update (hid : ∀ s, (f s).entry.id = s.entry.id) (c : Choice)
    (rows : List (Stored schema)) :
    (marked (c.mark (c.update f rows))).Sublist ((marked (c.mark rows)).map f) := by
  induction rows with
  | nil => cases c <;> exact List.Sublist.refl _
  | cons s rows ih =>
    cases c with
    | first id =>
      -- the first record with the id is still the first, and the only one that is chosen
      by_cases heq : s.entry.id = id
      · have hupdate : (first id).update f (s :: rows) = f s :: rows := by
          rw [update, mark_first_of_eq heq]
          exact congrArg (f s :: ·) (map_zip_unmarked f rows)
        have hmarked : ∀ s' : Stored schema, marked ((s', true) ::
            rows.zip ((rows.map Stored.entry).map fun _ => false)) = [s'] := by
          intro s'
          have hnone : marked (rows.zip ((rows.map Stored.entry).map fun _ => false)) = [] := by
            rw [List.map_map]
            exact marked_zip_unmarked rows
          exact congrArg (s' :: ·) hnone
        rw [hupdate, mark_first_of_eq ((hid s).trans heq), mark_first_of_eq heq, hmarked, hmarked]
        exact List.Sublist.refl _
      · have hupdate : (first id).update f (s :: rows) = s :: (first id).update f rows := by
          rw [update, mark_first_of_ne heq]
          rfl
        rw [hupdate, mark_first_of_ne heq, mark_first_of_ne heq]
        exact ih
    | every conditions =>
      -- a record that was not chosen is the same as before, so it is not chosen now
      simp only [update, mark_every, List.map_cons] at ih ⊢
      cases hold : conditions.all (·.holds s.entry) with
      | false =>
        simp only [Bool.false_eq_true, if_false, hold]
        exact ih
      | true =>
        simp only [if_true]
        cases conditions.all (·.holds (f s).entry) with
        | false => exact ih.cons (f s)
        | true => exact ih.cons_cons (f s)

end Choice

/-- The choice that a target makes depends on the ids alone. -/
theorem Table.choose_congr (t : Table) (target : Target) {es es' : List Entry}
    (h : es.map (·.id) = es'.map (·.id)) : t.choose target es = t.choose target es' := by
  cases target with
  | dependencies ds => rfl
  | entry id =>
    have hany : ∀ es : List Entry, es.any (·.id = id) = (es.map (·.id)).any (· = id) := by
      intro es
      rw [List.any_map]
      rfl
    rw [choose, choose, hany, hany, h]

/-! ## The file after a query that sets values -/

/-- The record of the entry with the values that are set, with the same blanks after it. -/
def Stored.overwrite {values : List Literal} (hlength : values.length = schema.columns.length)
    (s : Stored schema) : Stored schema where
  record := (s.entry.overwrite values).record (s.holds.isStored.overwrite hlength).isRecordId
  gap := s.gap
  blank := s.blank
  entry := s.entry.overwrite values
  holds := (s.holds.isStored.overwrite hlength).holds_record

namespace Layout

variable {values : List Literal}

/-- The parts of the file in which the values of the chosen entries are set. -/
def overwrite (l : Layout schema) (c : Choice) (hlength : values.length = schema.columns.length) :
    Layout schema :=
  { l with rows := c.update (Stored.overwrite hlength) l.rows }

variable (l : Layout schema) (c : Choice) (hlength : values.length = schema.columns.length)

/-- They make up the text that is written. -/
theorem chars_overwrite :
    (l.overwrite c hlength).chars = l.replaced c fun e => (e.overwrite values).encodeChars := by
  rw [chars, replaced, replaceRecords, overwrite, Choice.update, List.flatMap_map]
  congr 2
  refine List.flatMap_congr fun x _ => ?_
  obtain ⟨s, mark⟩ := x
  cases mark <;> rfl

/-- Records that are chosen now are among those that were written. -/
theorem marked_overwrite :
    (marked (c.mark (l.overwrite c hlength).rows)).Sublist
      ((marked (c.mark l.rows)).map (Stored.overwrite hlength)) :=
  Choice.marked_mark_update (f := Stored.overwrite hlength) (fun _ => rfl) c l.rows

/-- Setting the values again leaves this text as it is. -/
theorem replaced_overwrite :
    ((l.overwrite c hlength).replaced c fun e => (e.overwrite values).encodeChars) =
      (l.overwrite c hlength).chars := by
  refine replaced_eq_chars fun s hs => ?_
  obtain ⟨old, -, rfl⟩ := List.mem_map.1 ((l.marked_overwrite c hlength).subset hs)
  have hsame : (Stored.overwrite hlength old).entry.overwrite values =
      (Stored.overwrite hlength old).entry := Entry.overwrite_overwrite old.entry values
  rw [hsame]
  rfl

/-- The entries that are chosen afterwards are among those whose values were set. -/
theorem chosen_overwrite :
    (c.chosen (l.overwrite c hlength).entries).Sublist
      ((c.chosen l.entries).map (·.overwrite values)) := by
  have hrows := (l.marked_overwrite c hlength).map Stored.entry
  rw [marked_mark, List.map_map] at hrows
  rw [entries, entries, ← marked_mark c l.rows, List.map_map]
  exact hrows

end Layout

/-- Where every entry is replaced by just itself, the list stays as it is. -/
theorem Choice.replace_eq_self {f : Entry → List Entry} {es : List Entry} (h : ∀ e ∈ es, f e = [e])
    (c : Choice) : c.replace f es = es := by
  induction es with
  | nil => cases c <;> rfl
  | cons e es ih =>
    obtain ⟨he, hes⟩ := List.forall_mem_cons.1 h
    cases c with
    | first id =>
      rw [replace, ih hes, he]
      split <;> rfl
    | every conditions =>
      rw [replace, ih hes, he]
      split <;> rfl

/-! ## The second run -/

namespace Table

variable {t t' : Table} {files files' : FileTree} {c : Circumstances} {table : String}
  {target : Target} {values : List Literal} {answer : EntrySet} {elapsed : UInt64}

/-- A query that sets values runs on a live handle, which stays as it is. -/
theorem query_set_eq_ok_iff :
    t.query c (.set table target values) files = .ok (answer, t') files' ↔
      t.dropped = false ∧ t' = t ∧ t.set c.elapsed target values files = .ok answer files' := by
  rw [query_eq_ok_iff]
  exact and_congr_right fun _ => return_eq_ok_iff.trans and_comm

/-- What is written depends on the chosen entries only, and so does the answer. -/
theorem eq_of_rewrite {l : Layout t.schema} {choice : Choice} {text : Entry → List Char}
    {f : Entry → Entry}
    (h : t.rewrite l choice text ((choice.chosen l.entries).map f) files = .ok answer files') :
    answer = (choice.chosen l.entries).map f ∧
      (choice.chosen l.entries ≠ [] →
        t.replaceContent (l.replaced choice text) files = .ok () files') := by
  unfold rewrite at h
  split at h
  · next hnil =>
    cases h
    rw [hnil]
    exact ⟨rfl, fun h => absurd rfl h⟩
  · simp only [bind, EStateM.bind] at h
    split at h
    · next hreplace =>
      cases h
      exact ⟨rfl, fun _ => hreplace⟩
    · cases h

/-- Setting the same values again leaves every file as it is, and answers some of the entries that
the first run has answered. -/
theorem set_again {l : Layout t.schema}
    (hread : files.readText t.path = .ok (String.ofList l.chars))
    (hset : t.set elapsed target values files = .ok answer files') (elapsed' : UInt64) :
    ∃ answer', t.set elapsed' target values files' = .ok answer' files' ∧
      answer'.Sublist (answer.map (Entry.timed elapsed')) := by
  obtain ⟨row, choice, hrow, hchoose, hrewrite⟩ := (set_eq_ok_iff hread).1 hset
  obtain ⟨rfl, hreplace⟩ := eq_of_rewrite hrewrite
  have hlength := (coerceRow_eq_ok_iff.1 hrow).1
  -- the file now has the parts of the old one with the chosen records overwritten
  have hread' := readText_of_rewrite hread hrewrite
  rw [← l.chars_overwrite choice hlength] at hread' hreplace
  have hids : (l.overwrite choice hlength).entries.map (·.id) = l.entries.map (·.id) := by
    have hupdate := choice.map_id_update (f := Stored.overwrite hlength) (fun _ => rfl) l.rows
    rw [Layout.entries, Layout.entries, List.map_map, List.map_map]
    exact hupdate
  have hchoose' := (t.choose_congr target hids).trans hchoose
  have hchosen := l.chosen_overwrite choice hlength
  refine ⟨(choice.chosen (l.overwrite choice hlength).entries).map
    fun e => (e.overwrite values).timed elapsed',
    (set_eq_ok_iff hread').2 ⟨row, choice, hrow, hchoose', ?_⟩, ?_⟩
  · unfold rewrite
    split
    · next hnil =>
      rw [hnil]
      rfl
    · next hsome =>
      -- then the first run has written this very text
      have hwritten : choice.chosen l.entries ≠ [] := by
        intro hnil
        rw [hnil] at hchosen
        exact hsome (List.sublist_nil.1 hchosen)
      have hagain := replaceContent_again (hreplace hwritten)
      rw [← l.replaced_overwrite choice hlength] at hagain
      simp only [bind, EStateM.bind, hagain]
      rfl
  · have hanswer := hchosen.map fun e => (e.overwrite values).timed elapsed'
    simp only [List.map_map, Function.comp_def, Entry.overwrite_overwrite] at hanswer ⊢
    exact hanswer

/-- Setting values is idempotent. On a file whose records can be read, however it was written, the
second run of a query that has set values succeeds as well and leaves every file as the first run
has left it; it answers no entries but those that the first run has answered. If the values are
wildcards throughout, then the first run, too, leaves every record with the entry that it holds. -/
theorem query_set_idempotent {text : String} {header : Header} {entries : List Entry}
    (hread : files.readText t.path = .ok text) (hheader : Header.decode text = .ok header)
    (hentries : readEntries t.schema text = .ok entries)
    (hrun : t.query c (.set table target values) files = .ok (answer, t') files') :
    (∀ c' : Circumstances, ∃ answer',
      t'.query c' (.set table target values) files' = .ok (answer', t') files' ∧
        answer'.Sublist (answer.map (Entry.timed c'.elapsed))) ∧
    ((∀ l ∈ values, l.isWildcard = true) →
      ∃ newText, files'.readText t'.path = .ok newText ∧ Header.decode newText = .ok header ∧
        readEntries t'.schema newText = .ok entries) := by
  obtain ⟨l, hchars, rfl, rfl⟩ := exists_layout hheader hentries
  have htext : text = String.ofList l.chars := by rw [hchars, String.ofList_toList]
  subst htext
  obtain ⟨hlive, rfl, hset⟩ := query_set_eq_ok_iff.1 hrun
  refine ⟨fun c' => ?_, fun hwild => ?_⟩
  · obtain ⟨answer', hagain, hanswer⟩ := set_again hread hset c'.elapsed
    exact ⟨answer', query_set_eq_ok_iff.2 ⟨hlive, rfl, hagain⟩, hanswer⟩
  · obtain ⟨row, choice, hrow, -, hrewrite⟩ := (set_eq_ok_iff hread).1 hset
    have hlength := (coerceRow_eq_ok_iff.1 hrow).1
    have hstorable : Storable t'.schema fun e => some (e.overwrite values) := by
      rintro e _ hstored ⟨⟩
      exact hstored.overwrite hlength
    refine ⟨_, readText_of_rewrite hread hrewrite, ?_, ?_⟩
    · rw [Header.decode, String.toList_ofList]
      exact l.decoded _
    · refine (readEntries_replaced l choice hstorable).trans (congrArg Except.ok ?_)
      refine Choice.replace_eq_self (fun e he => ?_) choice
      obtain ⟨s, -, rfl⟩ := List.mem_map.1 he
      exact congrArg (fun e => [e]) (s.holds.isStored.overwrite_wildcards hlength hwild)

/-- A query sets the very value that it looks for, in a file that no query wrote: when it runs again
it finds nothing. Wildcards in its place put the numbers of the file into the spelling of the store
and keep the entries. -/
theorem query_set_idempotent_hand_written :
    ∃ (t : Table) (files files' files'' : FileTree) (answer answer' : EntrySet),
      t = { name := "T", schema := ⟨[⟨"A", .integer⟩]⟩, path := "t" } ∧
      files = ⟨[(["t"], .file "[T,00:A] \x7ba;I:+5\x7d \x7bb;I:7\x7d".toUTF8)], []⟩ ∧
      t.query ⟨"", 0⟩ (.set "T" (.dependencies [⟨"A", .equals, .bare "5"⟩]) [.bare "9"]) files =
        .ok (answer, t) files' ∧
      (∃ answer₂, t.query ⟨"", 0⟩
          (.set "T" (.dependencies [⟨"A", .equals, .bare "5"⟩]) [.bare "9"]) files' =
            .ok (answer₂, t) files' ∧ answer₂.Sublist (answer.map (Entry.timed 0))) ∧
      t.query ⟨"", 0⟩ (.set "T" .all [.bare "*"]) files = .ok (answer', t) files'' ∧
      ∃ newText, files''.readText t.path = .ok newText ∧
        Header.decode newText = .ok ⟨"T", ⟨[⟨"A", .integer⟩]⟩, 8⟩ ∧
        readEntries t.schema newText =
          .ok [{ id := "a", data := [("A", .int 5)] }, { id := "b", data := [("A", .int 7)] }] := by
  let schema : Schema := ⟨[⟨"A", .integer⟩]⟩
  let text : String := "[T,00:A] \x7ba;I:+5\x7d \x7bb;I:7\x7d"
  let t : Table := { name := "T", schema, path := "t" }
  let files : FileTree := ⟨[(["t"], .file text.toUTF8)], []⟩
  have hleads : files.LeadsTo t.path ["t"] := ⟨by decide, by decide, by decide⟩
  have hread : files.readText t.path = .ok text := FileTree.readText_eq_ok hleads rfl
  have hheader : Header.decode text = .ok ⟨"T", schema, 8⟩ := by decide
  have hentries : readEntries schema text =
      .ok [{ id := "a", data := [("A", .int 5)] }, { id := "b", data := [("A", .int 7)] }] := by
    cbv
  obtain ⟨l, hchars, -, -⟩ := exists_layout hheader hentries
  have hstores : t.Stores files l.chars := by
    rw [hchars]
    exact ⟨⟨["t"], hleads, by rw [String.ofList_toList]; rfl⟩,
      [".t.tmp"], by decide, by decide, by decide⟩
  have hset : ∀ ds values row conditions, coerceRow schema values = .ok row →
      Table.conditions schema ds = .ok conditions →
      ∃ answer files', t.query ⟨"", 0⟩ (.set "T" (.dependencies ds) values) files =
        .ok (answer, t) files' := by
    intro ds values row conditions hrow hconditions
    have hchoose : t.choose (.dependencies ds) l.entries = .ok (.every conditions) := by
      show (Table.conditions schema ds).map _ = _
      rw [hconditions]
      rfl
    obtain ⟨files', hset, -⟩ := hstores.set 0 hrow hchoose
    exact ⟨_, files', query_set_eq_ok_iff.2 ⟨rfl, rfl, hset⟩⟩
  obtain ⟨answer, files', hrun⟩ := hset [⟨"A", .equals, .bare "5"⟩] [.bare "9"] _ _ rfl rfl
  obtain ⟨answer', files'', hrun'⟩ := hset [] [.bare "*"] _ _ rfl rfl
  exact ⟨t, files, files', files'', answer, answer', rfl, rfl, hrun,
    (query_set_idempotent hread hheader hentries hrun).1 ⟨"", 0⟩, hrun',
    (query_set_idempotent hread hheader hentries hrun').2 (by decide)⟩

end Table

end RecordStore

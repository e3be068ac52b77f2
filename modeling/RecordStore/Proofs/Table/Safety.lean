import RecordStore.Proofs.Record.Cutting
import RecordStore.Proofs.Store.Answers
import RecordStore.Proofs.Table.Columns

/-!
# No query breaks off

A query walks over the bytes of its file, looks up the values of its conditions by their position in
an entry, and replaces the records that it changes in the text, the last one first. On no file, be
its text as it may, does it read behind the end of the text or of an entry, cut the text within a
character or run on for ever: it always answers or fails with an error of its own.

- `Walk.holds`, `Walk.select`: the records that a target is about; `select_eq`;
- `Walk.replaceAll`: replacing records from the last one on; `replaceAll_eq`;
- `Walk.query`: a whole query; `query_eq`;
- `query_never_breaks_off`: all of these.
-/

namespace RecordStore

namespace Walk

open Text (bytes replaceRange?)

variable {schema : Schema}

/-! ## The walk -/

/-- Whether an entry satisfies a condition, which looks at the value at its position. -/
def holds (c : Condition) (e : Entry) : Option Bool := do
  let (_, value) ← e.data[c.position]?
  return c.accepts value

/-- Whether an entry satisfies all conditions. After one that it does not satisfy no other one is
looked at. -/
def allHold : List Condition → Entry → Option Bool
  | [], _ => some true
  | c :: cs, e => do if ← holds c e then allHold cs e else return false

/-- The first record with this id. -/
def selectId (schema : Schema) (id : String) :
    List (Except Corruption RawRecord) → Checked Corruption (Option Selected)
  | [] => return none
  | .error e :: _ => throw e
  | .ok r :: rest => do
    if r.id = id then
      let entry ← entry r schema
      return some { start := r.start, stop := r.stop, entry }
    else selectId schema id rest

/-- The records whose entries satisfy every condition. -/
def selectWhere (schema : Schema) (conditions : List Condition) :
    List (Except Corruption RawRecord) → Checked Corruption (List Selected)
  | [] => return []
  | .error e :: _ => throw e
  | .ok r :: rest => do
    let entry ← entry r schema
    let selected ← Checked.access (allHold conditions entry)
    let others ← selectWhere schema conditions rest
    if selected then return { start := r.start, stop := r.stop, entry } :: others
    else return others

/-- The records of a file text that a target is about. -/
def select (t : Table) (text : List Char) (target : Target) :
    Checked QueryError (List Selected) := do
  let header ← ExceptT.adapt (·.error t.path) (header text)
  let found ← Checked.access (read text header.length)
  match target with
  | .entry id =>
    match ← ExceptT.adapt (·.error t.path) (selectId t.schema id found) with
    | some selected => return [selected]
    | none => throw (.entryNotFound t.name id)
  | .dependencies ds =>
    let conditions ← Checked.result (Table.conditions t.schema ds)
    ExceptT.adapt (·.error t.path) (selectWhere t.schema conditions found)

/-- The text with each edit made, the last one first, so that the positions of the others stay
valid. -/
def replaceAll : List Text.Edit → List Char → Option (List Char)
  | [], text => some text
  | edit :: edits, text => do
    let text ← replaceAll edits text
    replaceRange? edit.start edit.stop edit.replacement text

/-! ## Conditions -/

/-- A condition on a column of the schema finds its value in every entry that fits it. -/
theorem holds_eq {d : Dependency} {c : Condition} {e : Entry}
    (hc : Condition.ofDependency schema d = .ok c) (he : e.Fits schema) :
    holds c e = some (c.holds e) := by
  obtain ⟨p, hp⟩ := he.exists_getElem? hc
  rw [holds, Condition.holds, hp]
  rfl

theorem allHold_eq {cs : List Condition} {e : Entry}
    (hcs : ∀ c ∈ cs, ∃ d, Condition.ofDependency schema d = .ok c) (he : e.Fits schema) :
    allHold cs e = some (cs.all (·.holds e)) := by
  induction cs with
  | nil => rfl
  | cons c cs ih =>
    obtain ⟨⟨d, hd⟩, hcs⟩ := List.forall_mem_cons.1 hcs
    rw [allHold, holds_eq hd he, ih hcs, List.all_cons]
    cases c.holds e <;> rfl

/-- The conditions of a query come from dependencies. -/
theorem exists_of_mem_conditions {ds : List Dependency} {conditions : List Condition}
    (h : Table.conditions schema ds = .ok conditions) {c : Condition} (hc : c ∈ conditions) :
    ∃ d, Condition.ofDependency schema d = .ok c := by
  induction ds generalizing conditions with
  | nil =>
    cases h
    cases hc
  | cons d ds ih =>
    obtain ⟨c', tail, rfl, hd, htail⟩ := mapM_cons_eq_ok_iff.1 h
    rcases List.mem_cons.1 hc with rfl | hc
    · exact ⟨d, mapError_eq_ok_iff.1 hd⟩
    · exact ih htail hc

/-! ## Selecting -/

theorem selectId_eq (id : String) (found : List (Except Corruption RawRecord)) :
    selectId schema id found = Checked.result (Table.selectId schema id found) := by
  induction found with
  | nil => rfl
  | cons item found ih =>
    cases item with
    | error e => rfl
    | ok r =>
      rw [selectId, Table.selectId, ih, entry_eq]
      split
      · cases r.decode schema <;> rfl
      · rfl

theorem selectWhere_eq {conditions : List Condition}
    (hconditions : ∀ c ∈ conditions, ∃ d, Condition.ofDependency schema d = .ok c)
    (found : List (Except Corruption RawRecord)) :
    selectWhere schema conditions found =
      Checked.result (Table.selectWhere schema conditions found) := by
  induction found with
  | nil => rfl
  | cons item found ih =>
    cases item with
    | error e => rfl
    | ok r =>
      rw [selectWhere, Table.selectWhere, ih, entry_eq]
      cases he : r.decode schema with
      | error e => rfl
      | ok e =>
        rw [Checked.result_ok_bind, allHold_eq hconditions (RawRecord.fits_of_decode he),
          Checked.access_some_bind]
        simp only [bind, Except.bind]
        cases Table.selectWhere schema conditions found with
        | error fault => rfl
        | ok others => cases conditions.all (·.holds e) <;> rfl

/-- The walk selects the records that the target is about. -/
theorem select_eq (t : Table) (text : String) (target : Target) :
    select t text.toList target = Checked.result (t.select text target) := by
  rw [select, Table.select, header_eq, Checked.adapt_result]
  show (Checked.result ((Header.decode text).mapError _) >>= _) = _
  cases hheader : Header.decode text with
  | error e => rfl
  | ok header =>
    simp only [Except.mapError, Checked.result_ok_bind, read_eq_recordsFrom,
      Checked.access_some_bind]
    cases target with
    | entry id =>
      dsimp only
      rw [selectId_eq, Checked.adapt_result]
      simp only [bind, Except.bind]
      cases Table.selectId t.schema id (recordsFrom text header.length) with
      | error e => rfl
      | ok found => cases found <;> rfl
    | dependencies ds =>
      dsimp only
      cases hconditions : Table.conditions t.schema ds with
      | error e => rfl
      | ok conditions =>
        rw [Checked.result_ok_bind, selectWhere_eq fun c => exists_of_mem_conditions hconditions,
          Checked.adapt_result]
        rfl

/-! ## Replacing -/

/-- Changes of a text that stands at byte `pos`: each of them is one of what stands between two
characters, behind the changes before it. -/
def Applies (pos : Nat) (cs : List Char) : List Text.Edit → Prop
  | [] => True
  | edit :: edits => ∃ before part after, cs = before ++ (part ++ after) ∧
      edit.start = pos + Text.utf8Length before ∧ edit.stop = edit.start + Text.utf8Length part ∧
      Applies edit.stop after edits

/-- More text in front of the first change. -/
theorem Applies.append {pos : Nat} (gap : List Char) {cs : List Char} {edits : List Text.Edit}
    (h : Applies (pos + Text.utf8Length gap) cs edits) : Applies pos (gap ++ cs) edits := by
  cases edits with
  | nil => trivial
  | cons edit edits =>
    obtain ⟨before, part, after, rfl, hstart, hstop, hrest⟩ := h
    refine ⟨gap ++ before, part, after, (List.append_assoc _ _ _).symm, ?_, hstop, hrest⟩
    rw [hstart, Text.utf8Length_append, Nat.add_assoc]

/-- Making the last change first comes to the same as making them in one pass. -/
theorem replaceAll_append (front : List Char) {cs : List Char} {edits : List Text.Edit}
    (h : Applies (Text.utf8Length front) cs edits) :
    replaceAll edits (front ++ cs) =
      some (front ++ Text.splice (Text.utf8Length front) cs edits) := by
  induction edits generalizing front cs with
  | nil => rfl
  | cons edit edits ih =>
    obtain ⟨before, part, after, rfl, hstart, hstop, hrest⟩ := h
    have hfront : edit.stop = Text.utf8Length (front ++ before ++ part) := by
      rw [hstop, hstart, Text.utf8Length_append, Text.utf8Length_append]
    have hbefore : edit.start = Text.utf8Length (front ++ before) := by
      rw [hstart, Text.utf8Length_append]
    rw [hfront] at hrest
    have htext : front ++ (before ++ (part ++ after)) = front ++ before ++ part ++ after := by
      simp only [List.append_assoc]
    have hcut : edit.start - Text.utf8Length front = Text.utf8Length before := by omega
    have hpart : edit.stop - edit.start = Text.utf8Length part := by omega
    have hreplace := Text.replaceRange?_append (front ++ before) part
      (Text.splice edit.stop after edits) edit.replacement
    rw [← hfront, ← hbefore] at hreplace
    rw [replaceAll, htext, ih _ hrest, ← hfront, Option.bind_eq_bind, Option.bind_some,
      List.append_assoc (front ++ before), hreplace, Text.splice, hcut, Text.splitBytes_append]
    dsimp only
    rw [hpart, Text.splitBytes_append]
    simp only [List.append_assoc]

/-- A record in front of the other selected ones. -/
theorem applies_record (r : Record) (pos : Nat) {e : Entry} {rest : List Char}
    {text : Entry → List Char} {edits : List Text.Edit}
    (h : Applies (r.found pos).stop rest edits) :
    Applies pos (r.chars ++ rest)
      (Selected.edit text ⟨(r.found pos).start, (r.found pos).stop, e⟩ :: edits) :=
  ⟨[], r.chars, rest, rfl, rfl, rfl, h⟩

/-- The records that satisfy the conditions stand one after the other in the text, also if there is
a fault behind them. -/
theorem applies_selectWhere {conditions : List Condition} {pos : Nat} {cs : List Char}
    {selected : List Selected} (text : Entry → List Char)
    (h : Table.selectWhere schema conditions (records pos cs) = .ok selected) :
    Applies pos cs (selected.map (Selected.edit text)) := by
  fun_induction records pos cs generalizing selected with
  | case1 pos =>
    cases h
    trivial
  | case2 pos c cs hc ih =>
    have hrest := ih h
    rw [← Text.utf8Size_of_isAsciiBlank hc] at hrest
    exact hrest.append [c]
  | case3 pos c cs hc e hscan => cases h
  | case4 pos c cs hc raw rest hscan hlt ih =>
    obtain ⟨r, hr, rfl⟩ := exists_record_of_scanRecord hscan
    obtain ⟨e, he, h⟩ := bind_eq_ok_iff.1 h
    obtain ⟨others, hothers, h⟩ := bind_eq_ok_iff.1 h
    have hrest := ih hothers
    rw [hr]
    split at h
    · cases h
      exact applies_record r pos hrest
    · cases h
      exact hrest.append _

/-- So does the record with an id, also if there is a fault behind it. -/
theorem applies_selectId {id : String} {pos : Nat} {cs : List Char} {s : Selected}
    (text : Entry → List Char)
    (h : Table.selectId schema id (records pos cs) = .ok (some s)) :
    Applies pos cs [s.edit text] := by
  fun_induction records pos cs with
  | case1 pos => cases h
  | case2 pos c cs hc ih =>
    have hrest := ih h
    rw [← Text.utf8Size_of_isAsciiBlank hc] at hrest
    exact hrest.append [c]
  | case3 pos c cs hc e hscan => cases h
  | case4 pos c cs hc raw rest hscan hlt ih =>
    obtain ⟨r, hr, rfl⟩ := exists_record_of_scanRecord hscan
    rw [Table.selectId] at h
    rw [hr]
    split at h
    · obtain ⟨e, he, hs⟩ := map_eq_ok_iff.1 h
      cases hs
      exact applies_record r pos trivial
    · exact (ih h).append _

/-- The records of a file stand behind its header. -/
theorem applies_recordsFrom {P : List (Except Corruption RawRecord) → Prop} {text : String}
    {offset : Nat} {edits : List Text.Edit} (h : P (recordsFrom text offset))
    (hrecords : ∀ pos cs, P (records pos cs) → Applies pos cs edits)
    (hfault : ∀ e, ¬P [.error e]) : Applies 0 text.toList edits := by
  unfold recordsFrom at h
  split at h
  · next rest hdrop =>
    rcases Text.at_of_dropBytes? hdrop with ⟨before, htext, rfl⟩ | ⟨rfl, -⟩
    · rw [htext]
      refine Applies.append _ ?_
      rw [Nat.zero_add]
      exact hrecords _ _ h
    · rw [records.eq_1, ← records.eq_1 (0 + Text.utf8Length text.toList)] at h
      rw [← List.append_nil text.toList]
      exact (hrecords _ _ h).append _
  · exact absurd h (hfault _)

/-- The selected records of a file can be replaced, the last one first. -/
theorem replaceAll_eq {t : Table} {text : String} {target : Target} {selected : List Selected}
    (h : t.select text target = .ok selected) (record : Entry → List Char) :
    replaceAll (selected.map (Selected.edit record)) text.toList =
      some (Text.splice 0 text.toList (selected.map (Selected.edit record))) := by
  have happlies : Applies 0 text.toList (selected.map (Selected.edit record)) := by
    obtain ⟨header, -, h⟩ := bind_eq_ok_iff.1 h
    cases target with
    | entry id =>
      obtain ⟨choice, hchoice, h⟩ := bind_eq_ok_iff.1 h
      cases choice with
      | none => cases h
      | some s =>
        cases h
        exact applies_recordsFrom (P := (Table.selectId t.schema id · = .ok (some s)))
          (mapError_eq_ok_iff.1 hchoice) (fun _ _ => applies_selectId record) fun _ => nofun
    | dependencies ds =>
      obtain ⟨conditions, -, h⟩ := bind_eq_ok_iff.1 h
      exact applies_recordsFrom (P := (Table.selectWhere t.schema conditions · = .ok selected))
        (mapError_eq_ok_iff.1 h) (fun _ _ => applies_selectWhere record) fun _ => nofun
  exact replaceAll_append [] happlies

end Walk

/-! ## Whole queries -/

/-- What a walk comes to that works on files as well. -/
abbrev CheckedDisk := ExceptT QueryError (StateT FileTree Option)

namespace CheckedDisk

variable {α β : Type}

/-- An operation on files, which always comes to something. -/
def ofDisk (operation : Disk α) : CheckedDisk α :=
  ExceptT.mk fun files => some (outcome (operation files), stateAfter (operation files))

/-- A walk that leaves the files alone. -/
def ofChecked (walk : Checked QueryError α) : CheckedDisk α :=
  ExceptT.mk fun files => walk.run.map fun r => (r, files)

theorem ofDisk_bind (x : Disk α) (f : α → Disk β) :
    (ofDisk x >>= fun a => ofDisk (f a)) = ofDisk (x >>= f) := by
  funext files
  simp only [ofDisk, bind, ExceptT.bind, ExceptT.mk, StateT.bind, ExceptT.bindCont, EStateM.bind]
  cases x files <;> rfl

theorem ofChecked_access_bind (a : α) (f : α → CheckedDisk β) :
    (ofChecked (Checked.access (some a)) >>= f) = f a := rfl

theorem ofChecked_result (r : Except QueryError α) :
    ofChecked (Checked.result r) = ofDisk (Disk.ofExcept r) := by
  cases r <;> rfl

end CheckedDisk

namespace Walk

open CheckedDisk (ofDisk ofChecked)

/-- The entries that a target is about. -/
def get (t : Table) (elapsed : UInt64) (target : Target) : CheckedDisk EntrySet := do
  let text ← ofDisk (Disk.readText t.path)
  let selected ← ofChecked (select t text.toList target)
  return selected.map fun s => s.entry.timed elapsed

/-- Removes the entries that a target is about. -/
def remove (t : Table) (target : Target) : CheckedDisk EntrySet := do
  let text ← ofDisk (Disk.readText t.path)
  let selected ← ofChecked (select t text.toList target)
  if selected.isEmpty then return []
  let newText ← ofChecked <| Checked.access <|
    replaceAll (selected.map (Selected.edit fun _ => [])) text.toList
  ofDisk (t.replaceContent newText)
  return selected.map (·.entry)

/-- Replaces values in the entries that a target is about. -/
def set (t : Table) (elapsed : UInt64) (target : Target) (values : List Literal) :
    CheckedDisk EntrySet := do
  let replacements ← ofDisk (Disk.ofExcept (Table.coerceRow t.schema values))
  let text ← ofDisk (Disk.readText t.path)
  let selected ← ofChecked (select t text.toList target)
  if selected.isEmpty then return []
  let updated := selected.map fun s => { s with entry := Table.replaceValues replacements s.entry }
  let newText ← ofChecked <| Checked.access <|
    replaceAll (updated.map (Selected.edit Entry.encodeChars)) text.toList
  ofDisk (t.replaceContent newText)
  return updated.map fun s => s.entry.timed elapsed

/-- Runs a query. Adding an entry and dropping the table do not look at the text of the file. -/
def query (t : Table) (c : Circumstances) (q : Query) : CheckedDisk (EntrySet × Table) :=
  if t.dropped then ofDisk (Disk.ofExcept (.error (.tableDropped t.name)))
  else
    match q with
    | .add _ values => do return (← ofDisk (t.add c.newId values), t)
    | .get _ target => do return (← get t c.elapsed target, t)
    | .remove _ target => do return (← remove t target, t)
    | .set _ target values => do return (← set t c.elapsed target values, t)
    | .drop _ => do
      ofDisk t.deleteFile
      return ([], { t with dropped := true })

theorem get_eq (t : Table) (elapsed : UInt64) (target : Target) :
    get t elapsed target = ofDisk (t.get elapsed target) := by
  rw [get, Table.get, ← CheckedDisk.ofDisk_bind]
  congr 1
  funext text
  rw [select_eq, CheckedDisk.ofChecked_result, ← CheckedDisk.ofDisk_bind]
  rfl

/-- Writing a text in which records are replaced, and answering what was changed. -/
theorem rewrite_eq (t : Table) {text newText : List Char} {edits : List Text.Edit}
    (h : replaceAll edits text = some newText) (answer : EntrySet) :
    (do
      let newText ← ofChecked (Checked.access (replaceAll edits text))
      ofDisk (t.replaceContent newText)
      return answer : CheckedDisk EntrySet) =
      ofDisk (do t.replaceContent newText; return answer) := by
  rw [h, CheckedDisk.ofChecked_access_bind]
  exact CheckedDisk.ofDisk_bind (t.replaceContent newText) fun _ => pure answer

theorem remove_eq (t : Table) (target : Target) :
    remove t target = ofDisk (t.remove target) := by
  rw [remove, Table.remove, ← CheckedDisk.ofDisk_bind]
  congr 1
  funext text
  rw [select_eq, CheckedDisk.ofChecked_result]
  cases hselect : t.select text target with
  | error e => rfl
  | ok selected =>
    have hreplace := replaceAll_eq hselect fun _ => []
    show (if selected.isEmpty then _ else _) = ofDisk (if selected.isEmpty then _ else _)
    split
    · rfl
    · exact rewrite_eq t hreplace _

theorem set_eq (t : Table) (elapsed : UInt64) (target : Target) (values : List Literal) :
    set t elapsed target values = ofDisk (t.set elapsed target values) := by
  rw [set, Table.set, ← CheckedDisk.ofDisk_bind]
  congr 1
  funext replacements
  rw [← CheckedDisk.ofDisk_bind]
  congr 1
  funext text
  rw [select_eq, CheckedDisk.ofChecked_result]
  cases hselect : t.select text target with
  | error e => rfl
  | ok selected =>
    have hreplace := replaceAll_eq hselect fun e =>
      (Table.replaceValues replacements e).encodeChars
    have hedits : (selected.map fun s => { s with
          entry := Table.replaceValues replacements s.entry }).map
          (Selected.edit Entry.encodeChars) =
        selected.map (Selected.edit fun e => (Table.replaceValues replacements e).encodeChars) := by
      rw [List.map_map]
      rfl
    rw [← hedits] at hreplace
    show (if selected.isEmpty then _ else _) = ofDisk (if selected.isEmpty then _ else _)
    split
    · rfl
    · exact rewrite_eq t hreplace _

/-- A query that is run as a walk does what it does. -/
theorem query_eq (t : Table) (c : Circumstances) (q : Query) :
    query t c q = ofDisk (t.query c q) := by
  have hreturn {walk : CheckedDisk EntrySet} {operation : Disk EntrySet}
      (h : walk = ofDisk operation) :
      (do return (← walk, t) : CheckedDisk (EntrySet × Table)) =
        ofDisk (do return (← operation, t)) := by
    rw [h]
    exact CheckedDisk.ofDisk_bind operation fun entries => pure (entries, t)
  unfold query Table.query
  split
  · rfl
  · cases q with
    | add table values => exact hreturn rfl
    | get table target => exact hreturn (get_eq t c.elapsed target)
    | remove table target => exact hreturn (remove_eq t target)
    | set table target values => exact hreturn (set_eq t c.elapsed target values)
    | drop table => exact CheckedDisk.ofDisk_bind t.deleteFile fun _ => pure _

end Walk

/-- Every walk over a text comes to something, which is what the scan by characters comes to: that
for the header of a file, that of a reader which is started at any byte, within a character or
behind the end of the text, and that for the fields of any record. And so every query on a file,
whatever its text is, and whatever the columns of the handle are, is answered or fails with an
error. -/
theorem query_never_breaks_off :
    (∀ text : String, (Walk.header text.toList).run = some (Header.decode text)) ∧
    (∀ (text : String) (offset : Nat),
      Walk.read text.toList offset = some (recordsFrom text offset)) ∧
    (∀ (r : RawRecord) (schema : Schema), (Walk.entry r schema).run = some (r.decode schema)) ∧
    (∀ (t : Table) (text : String) (target : Target),
      (Walk.select t text.toList target).run = some (t.select text target)) ∧
    ∀ (t : Table) (c : Circumstances) (q : Query) (files : FileTree),
      (Walk.query t c q).run files =
        some (outcome (t.query c q files), stateAfter (t.query c q files)) := by
  refine ⟨fun text => ?_, Walk.read_eq_recordsFrom, fun r schema => ?_, fun t text target => ?_,
    fun t c q files => ?_⟩
  · rw [Walk.header_eq]
    rfl
  · rw [Walk.entry_eq]
    rfl
  · rw [Walk.select_eq]
    rfl
  · rw [Walk.query_eq]
    rfl

end RecordStore

import RecordStore.Proofs.FileTree.Beside
import RecordStore.Proofs.Table.Contents
import RecordStore.Proofs.Table.Where

/-!
# When a table can be changed

A query that removes or sets entries writes a temporary file beside that of the table. Its name is
five bytes longer than the name of the table file, so not every table that could be made can be
changed. On a table that was made, after any queries, the temporary file is the only thing that can
stop such a query, if its values suit the columns and its target is in order and matches an entry.

- `Target.Matches`: a target is in order and matches an entry; `exists_choice`: it then chooses one;
- `exists_query_eq_replaceContent`: all that is left of such a query is to replace the content;
- `exists_temporaryPath_iff`: when the temporary file can be written;
- `exists_create`: when a table can be made where there are no files;
- `Holds.mutation`: what becomes of such a query on a table that holds entries;
- `mutation_succeeds_iff`: when such a query succeeds after any queries on a new table;
- `mutation_fails_of_long_name`: a table that can be made and filled but not changed.
-/

namespace RecordStore

variable {schema : Schema} {rows : List Entry}

/-! ## Queries that have something to do -/

/-- Whether a target is in order and matches at least one of the entries. -/
def Target.Matches (schema : Schema) (rows : List Entry) : Target → Prop
  | .entry id => ∃ e ∈ rows, e.id = id
  | .dependencies ds =>
    (∀ d ∈ ds, d.fault? schema = none) ∧ ∃ e ∈ rows, ∀ d ∈ ds, d.holds e = true

namespace Table

variable {t t' : Table} {files files' : FileTree} {place : Place} {c : Circumstances} {q : Query}
  {target : Target}

/-- A target that matches an entry chooses one. -/
theorem exists_choice (hfits : ∀ e ∈ rows, e.Fits t.schema)
    (h : target.Matches t.schema rows) :
    ∃ choice, t.choose target rows = .ok choice ∧ choice.chosen rows ≠ [] := by
  cases target with
  | entry id =>
    obtain ⟨e, he, hid⟩ := h
    have hsome : rows.any (·.id = id) = true := List.any_eq_true.2 ⟨e, he, decide_eq_true hid⟩
    refine ⟨.first id, by rw [choose, if_pos hsome], ?_⟩
    have hfind : (rows.find? (·.id = id)).isSome = true :=
      List.find?_isSome.2 ⟨e, he, decide_eq_true hid⟩
    rw [Choice.chosen, ne_eq, Option.toList_eq_nil_iff]
    exact Option.isSome_iff_ne_none.1 hfind
  | dependencies ds =>
    obtain ⟨hds, e, he, hholds⟩ := h
    obtain ⟨cs, hcs, hall⟩ := exists_conditions hds
    refine ⟨.every cs, by rw [choose, hcs]; rfl, List.ne_nil_of_mem (a := e) ?_⟩
    refine List.mem_filter.2 ⟨he, ?_⟩
    rw [hall e (hfits e he)]
    exact List.all_eq_true.2 hholds

/-- What chooses an entry is written. -/
theorem rewrite_of_chosen {l : Layout t.schema} {choice : Choice} (h : choice.chosen l.entries ≠ [])
    (text : Entry → List Char) (answer : EntrySet) :
    t.rewrite l choice text answer = do
      t.replaceContent (l.replaced choice text)
      return answer := if_neg h

/-- All that is left of a query that has entries to remove or to set is to replace the content of
the file. -/
theorem exists_query_eq_replaceContent {text : String} (hlive : t.dropped = false)
    (hread : files.readText t.path = .ok text) (hrows : readEntries t.schema text = .ok rows)
    (htarget : q.target? = some target) (hmutation : q.isMutation = true)
    (hsuits : q.Suits t.schema) (hmatches : target.Matches t.schema rows) (c : Circumstances) :
    ∃ content answer, t.query c q files =
      (do t.replaceContent content; return (answer, t) : Disk (EntrySet × Table)) files := by
  have hfits := fits_of_readEntries hrows
  obtain ⟨header, hheader, -⟩ := bind_eq_ok_iff.1 hrows
  obtain ⟨l, hchars, -, rfl⟩ := exists_layout hheader hrows
  rw [← String.ofList_toList (s := text), ← hchars] at hread
  obtain ⟨choice, hchoose, hchosen⟩ := exists_choice hfits hmatches
  rw [query_of_live hlive]
  cases q with
  | add table values => cases htarget
  | get table target => cases hmutation
  | drop table => cases htarget
  | remove table target' =>
    cases htarget
    refine ⟨l.replaced choice fun _ => [], choice.chosen l.entries, ?_⟩
    simp only [run, bind, EStateM.bind, remove_eq l hread, hchoose, rewrite_of_chosen hchosen]
    cases t.replaceContent _ files <;> rfl
  | set table target' values =>
    cases htarget
    obtain ⟨row, hrow⟩ := exists_coerceRow hsuits
    refine ⟨l.replaced choice fun e => (e.overwrite values).encodeChars,
      (choice.chosen l.entries).map fun e => (e.overwrite values).timed c.elapsed, ?_⟩
    simp only [run, bind, EStateM.bind, set_eq l hread, hrow, hchoose, rewrite_of_chosen hchosen]
    cases t.replaceContent _ files <;> rfl

/-! ## The temporary file -/

/-- The content of a file is replaced exactly if the temporary file can be written. -/
theorem exists_replaceContent_iff (hleads : files.LeadsTo t.path place) (text : List Char) :
    (∃ files', t.replaceContent text files = .ok () files') ↔
      ∃ temporary, files.LeadsTo t.temporaryPath temporary := by
  constructor
  · rintro ⟨files', h⟩
    obtain ⟨middle, hover, -⟩ := replaceContent_eq_ok_iff.1 h
    obtain ⟨temporary, htemporary, -⟩ := FileTree.overwrite_eq_ok_iff.1 hover
    exact ⟨temporary, htemporary⟩
  · rintro ⟨temporary, htemporary⟩
    exact ⟨_, replaceContent_eq htemporary hleads text⟩

/-- The name of a file that a path leads to. -/
theorem exists_fileName (hleads : files.LeadsTo t.path place) :
    ∃ folder last, place = folder ++ [last] ∧ Path.fileName? t.path = some last ∧
      last.utf8ByteSize ≤ FileTree.nameLimit ∧ '/' ∉ last.toList ∧ '\x00' ∉ last.toList := by
  obtain ⟨folder, last, rfl, hsegments, hlast, hup⟩ :=
    FileTree.exists_name_of_locate hleads.located
  obtain ⟨hslash, hpath⟩ := Path.getLast?_segments_eq_some_iff.1 hsegments
  refine ⟨folder, last, rfl, Path.fileName?_of_getLast? hsegments hlast hup, ?_, hslash, ?_⟩
  · simpa using hleads.short
  · intro hnul
    refine (FileTree.isValid_of_locate hleads.located).free ?_
    obtain hpath | ⟨before, hpath⟩ := hpath <;> simp [hpath, hnul]

theorem utf8ByteSize_temporaryName (last : String) :
    ("." ++ last ++ ".tmp").utf8ByteSize = last.utf8ByteSize + 5 := by
  have hdot : ".".utf8ByteSize = 1 := rfl
  have hending : ".tmp".utf8ByteSize = 4 := rfl
  rw [String.utf8ByteSize_append, String.utf8ByteSize_append, hdot, hending]
  omega

theorem temporaryPath_eq {last : String} (hfile : Path.fileName? t.path = some last) :
    t.temporaryPath = Path.withFileName t.path ("." ++ last ++ ".tmp") := by
  rw [temporaryPath, hfile]
  rfl

/-- The temporary file is beside the file of the table, in the same folder. -/
theorem locate_temporaryPath {folder : Place} {last : String}
    (hleads : files.LeadsTo t.path (folder ++ [last]))
    (hshort : t.temporaryPath.utf8ByteSize ≤ FileTree.pathLimit) :
    files.locate t.temporaryPath = .ok (folder ++ ["." ++ last ++ ".tmp"], .name) := by
  obtain ⟨folder', last', hplace, hfile, -, hslash, hnul⟩ := exists_fileName hleads
  obtain ⟨rfl, hlasts⟩ := List.append_inj' hplace rfl
  obtain rfl : last = last' := by simpa using hlasts
  have hsize : 2 < ("." ++ last ++ ".tmp").utf8ByteSize := by
    rw [utf8ByteSize_temporaryName]
    omega
  obtain ⟨hfiller, hup⟩ := Path.isFiller_of_size hsize
  rw [temporaryPath_eq hfile] at hshort ⊢
  refine FileTree.locate_withFileName hleads.located ?_ ?_ hfiller hup hshort
  · simp [String.toList_append, hslash]
  · simp [String.toList_append, hnul]

/-- The temporary file can be written if neither its name nor its path is too long and no folder is
in the way. -/
theorem exists_temporaryPath_iff {folder : Place} {last : String}
    (hleads : files.LeadsTo t.path (folder ++ [last])) :
    (∃ temporary, files.LeadsTo t.temporaryPath temporary) ↔
      last.utf8ByteSize + 5 ≤ FileTree.nameLimit ∧
        t.temporaryPath.utf8ByteSize ≤ FileTree.pathLimit ∧
        files.isFolder t.temporaryPath = false := by
  constructor
  · rintro ⟨temporary, htemporary⟩
    have hshort := (FileTree.isValid_of_locate htemporary.located).short
    have hlocate := locate_temporaryPath hleads hshort
    cases hlocate.symm.trans htemporary.located
    have hname : ("." ++ last ++ ".tmp").utf8ByteSize ≤ FileTree.nameLimit := by
      simpa using htemporary.short
    rw [utf8ByteSize_temporaryName] at hname
    refine ⟨hname, hshort, Bool.eq_false_iff.2 fun hfolder => ?_⟩
    obtain ⟨place, ending, hplace, hfind⟩ := FileTree.isFolder_iff.1 hfolder
    cases hlocate.symm.trans hplace
    exact htemporary.notFolder hfind
  · rintro ⟨hname, hshort, hfolder⟩
    have hlocate := locate_temporaryPath hleads hshort
    rw [← utf8ByteSize_temporaryName] at hname
    refine ⟨_, hlocate, by simpa using hname, fun hfind => ?_⟩
    rw [FileTree.isFolder_iff.2 ⟨_, _, hlocate, hfind⟩] at hfolder
    cases hfolder

/-- If its name is too long, replacing the content fails for that reason and changes nothing. -/
theorem replaceContent_eq_error {folder : Place} {last : String}
    (hleads : files.LeadsTo t.path (folder ++ [last]))
    (hlong : FileTree.nameLimit < last.utf8ByteSize + 5)
    (hshort : t.temporaryPath.utf8ByteSize ≤ FileTree.pathLimit) (text : List Char) :
    t.replaceContent text files = .error (Disk.failure t.temporaryPath .nameTooLong) files := by
  rw [← utf8ByteSize_temporaryName] at hlong
  have hlookUp : files.lookUp (folder ++ ["." ++ last ++ ".tmp"]) = .error .nameTooLong := by
    rw [FileTree.lookUp, List.getLast?_concat, if_pos (by simpa using hlong)]
  have hover (content : ByteArray) :
      files.overwrite t.temporaryPath content = .error .nameTooLong := by
    rw [FileTree.overwrite, locate_temporaryPath hleads hshort]
    simp only [bind, Except.bind, hlookUp]
    rfl
  simp only [replaceContent, bind, EStateM.bind, Disk.change, hover]

/-! ## New tables -/

theorem utf8ByteSize_fileName (name : String) :
    (name ++ "." ++ "tbl").utf8ByteSize = name.utf8ByteSize + 4 := by
  have hending : ("." ++ "tbl").utf8ByteSize = 4 := rfl
  rw [String.append_assoc, String.utf8ByteSize_append, hending]

/-- Where there are no files, a table can be made if the name of its file is not too long. -/
theorem exists_create {name : String} (hname : Name.check name = .ok ())
    (hschema : schema.check = .ok ()) (hslash : '/' ∉ name.toList) (hnul : '\x00' ∉ name.toList)
    (hshort : name.utf8ByteSize + 4 ≤ FileTree.nameLimit) :
    ∃ t files, create { dataDir := "" } name schema ⟨[], []⟩ = .ok t files ∧
      Path.fileName? t.path = some (name ++ "." ++ "tbl") ∧
      t.temporaryPath = "." ++ (name ++ "." ++ "tbl") ++ ".tmp" := by
  have hsize := utf8ByteSize_fileName name
  have hslash' : '/' ∉ (name ++ "." ++ "tbl").toList := by simp [String.toList_append, hslash]
  have hnul' : '\x00' ∉ (name ++ "." ++ "tbl").toList := by simp [String.toList_append, hnul]
  have htablePath : StoreConfig.tablePath { dataDir := "" } name = name ++ "." ++ "tbl" := by
    simp [StoreConfig.tablePath, Path.join]
  generalize name ++ "." ++ "tbl" = last at *
  obtain ⟨hfiller, hup⟩ := Path.isFiller_of_size (by omega : 2 < last.utf8ByteSize)
  have hfile : Path.fileName? last = some last :=
    Path.fileName?_of_getLast? (Path.getLast?_segments_of_notMem hslash') hfiller hup
  have hpath : last.utf8ByteSize ≤ FileTree.pathLimit := by
    rw [hsize]
    exact le_trans hshort (by decide)
  have hlocate := FileTree.locate_of_notMem (t := ⟨[], []⟩) hslash' hnul' hfiller hup hpath
  have hlookUp : (⟨[], []⟩ : FileTree).lookUp [last] = .ok none :=
    FileTree.lookUp_eq_ok_iff.2 ⟨by simpa [hsize] using hshort, rfl⟩
  have hmade := FileTree.create_eq_ok_iff.2 ⟨_, .name, hlocate, by simp, hlookUp,
    (rfl : _ = FileTree.put ⟨[], []⟩ [last] (.file (Header.encode name schema).toUTF8))⟩
  have hfolders : Disk.makeFolders "" ⟨[], []⟩ = .ok () ⟨[], []⟩ := rfl
  have hcreate : create { dataDir := "" } name schema ⟨[], []⟩ =
      .ok { name, schema, path := last }
        (FileTree.put ⟨[], []⟩ [last] (.file (Header.encode name schema).toUTF8)) := by
    simp only [create, bind, EStateM.bind, hname, hschema, Except.mapError, Disk.ofExcept,
      hfolders, htablePath, Disk.change, hmade]
    rfl
  exact ⟨{ name, schema, path := last }, _, hcreate, hfile,
    (temporaryPath_eq (t := { name, schema, path := last }) hfile).trans
      (Path.withFileName_of_notMem hslash' hfiller hup _)⟩

/-- The name of 247 letters is a valid one. -/
theorem check_letters : Name.check (String.ofList (List.replicate 247 'a')) = .ok () := by
  refine (Name.check_eq_ok_iff _).2 ⟨?_, ?_, ?_⟩
  · rw [String.toList_ofList]
    exact List.cons_ne_nil 'a' _
  · rw [String.toList_ofList]
    intro c hc
    rw [List.eq_of_mem_replicate hc]
    decide
  · rw [Keyword.ofWord?, Text.upper, String.toList_ofList]
    decide +kernel

/-! ## Queries that change a table -/

/-- What becomes of a query that is to remove or to set entries, and that matches some: only the
temporary file can stop it. -/
theorem Holds.mutation {last : String} (h : t.Holds files place rows) (hmade : t.IsMade)
    (hlive : t.dropped = false) (hfile : Path.fileName? t.path = some last)
    (htarget : q.target? = some target) (hmutation : q.isMutation = true)
    (hsuits : q.Suits t.schema) (hmatches : target.Matches t.schema rows) (c : Circumstances) :
    ((∃ answer files', t.query c q files = .ok (answer, t) files') ↔
      last.utf8ByteSize + 5 ≤ FileTree.nameLimit ∧
        t.temporaryPath.utf8ByteSize ≤ FileTree.pathLimit ∧
        files.isFolder t.temporaryPath = false) ∧
    (FileTree.nameLimit < last.utf8ByteSize + 5 →
      t.temporaryPath.utf8ByteSize ≤ FileTree.pathLimit →
      t.query c q files = .error (.io t.temporaryPath "InvalidFilename"
        "File name too long (os error 36)") files) := by
  obtain ⟨content, answer, hquery⟩ := exists_query_eq_replaceContent hlive h.readText
    (h.readEntries hmade) htarget hmutation hsuits hmatches c
  obtain ⟨folder, last', rfl, hfile', -⟩ := exists_fileName h.leads
  obtain rfl : last = last' := Option.some.inj (hfile.symm.trans hfile')
  rw [hquery]
  refine ⟨?_, fun hlong hpath => ?_⟩
  · rw [← exists_temporaryPath_iff h.leads, ← exists_replaceContent_iff h.leads content]
    constructor
    · rintro ⟨answer', files', hdone⟩
      obtain ⟨_, files', hreplace, -⟩ := bind_run_eq_ok_iff.1 hdone
      exact ⟨files', hreplace⟩
    · rintro ⟨files', hreplace⟩
      exact ⟨answer, files', bind_run_eq_ok_iff.2 ⟨_, files', hreplace, rfl⟩⟩
  · exact bind_run_eq_error_iff.2 (.inl (replaceContent_eq_error h.leads hlong hpath content))

/-- A new table that is not dropped by any queries can be read, and its path ends with the name of
its file. A query that is to remove or to set entries, whose values suit the columns and whose
target is in order and matches an entry, then succeeds exactly if the temporary file beside that of
the table can be written: its name, which is five bytes longer, and its path must not be too long,
and no folder may be in the way. If the name is too long, every such query fails for that reason and
changes nothing. -/
theorem mutation_succeeds_iff {config : StoreConfig} {name : String} (htree : files.IsTree)
    (hcreate : create config name schema files = .ok t files')
    {xs : List (Circumstances × Query)} (hids : ∀ x ∈ xs, IsRecordId x.1.newId)
    {files'' : FileTree} (hrun : (runSteps stepFiles (t, files') xs).2 = (t', files''))
    (hlive : t'.dropped = false) :
    ∃ last text rows, Path.fileName? t'.path = some last ∧
      last.utf8ByteSize ≤ FileTree.nameLimit ∧ files''.readText t'.path = .ok text ∧
      readEntries schema text = .ok rows ∧
      ∀ c q target, q.target? = some target → q.isMutation = true → q.Suits schema →
        target.Matches schema rows →
        ((∃ answer u, t'.query c q files'' = .ok (answer, t') u) ↔
          last.utf8ByteSize + 5 ≤ FileTree.nameLimit ∧
            t'.temporaryPath.utf8ByteSize ≤ FileTree.pathLimit ∧
            files''.isFolder t'.temporaryPath = false) ∧
        (FileTree.nameLimit < last.utf8ByteSize + 5 →
          t'.temporaryPath.utf8ByteSize ≤ FileTree.pathLimit →
          t'.query c q files'' = .error (.io t'.temporaryPath "InvalidFilename"
            "File name too long (os error 36)") files'') := by
  have hcreated := create_effect config name schema files
  rw [hcreate] at hcreated
  have hschema : t.schema = schema := by rw [hcreated.handle]
  obtain ⟨place, -, hleads, hheader, -⟩ :=
    hcreated.exists_place fun _ _ => Created.find?_ne_none_of_isTree htree
  have hlast : (runSteps stepFiles (t, files') xs).2.1.dropped = false := by rw [hrun, hlive]
  obtain ⟨hhandle, rows, hrows⟩ := (hcreated.holds hleads hheader).run hcreated.isMade hids hlast
  rw [hrun] at hhandle hrows
  obtain rfl : t' = t := hhandle
  obtain ⟨folder, last, rfl, hfile, hshort, -⟩ := exists_fileName hrows.leads
  subst hschema
  refine ⟨last, _, rows, hfile, hshort, hrows.readText, hrows.readEntries hcreated.isMade, ?_⟩
  intro c q target htarget hmutation hsuits hmatches
  exact hrows.mutation hcreated.isMade hlive hfile htarget hmutation hsuits hmatches c

/-- A new table to which one entry is added, and from which it is removed again. -/
theorem mutation_succeeds_iff_remove :
    ∃ t files files' answer u,
      create {} "T" ⟨[⟨"v", .integer⟩]⟩ ⟨[], []⟩ = .ok t files ∧
      (runSteps stepFiles (t, files) [(⟨EntryId.ofWord 5, 0⟩, .add "T" [.bare "1"])]).2 =
        (t, files') ∧
      t.query ⟨"", 0⟩ (.remove "T" .all) files' = .ok (answer, t) u := by
  let schema : Schema := ⟨[⟨"v", .integer⟩]⟩
  let t : Table := { name := "T", schema, path := "./data/T.tbl" }
  let files : FileTree :=
    ⟨[(["data", "T.tbl"], .file "[T,0:v]".toUTF8), (["data"], .folder)], []⟩
  let xs : List (Circumstances × Query) := [(⟨EntryId.ofWord 5, 0⟩, .add "T" [.bare "1"])]
  let files' : FileTree := (runSteps stepFiles (t, files) xs).2.2
  let text : String := "[T,0:v]\x7b0000000000000005;I:1\x7d"
  have hcreate : create {} "T" schema ⟨[], []⟩ = .ok t files := rfl
  have hids : ∀ x ∈ xs, IsRecordId x.1.newId := List.forall_mem_singleton.2 (isRecordId_ofWord 5)
  have hhandle : (runSteps stepFiles (t, files) xs).2.1 = t := by decide +kernel
  have hrun : (runSteps stepFiles (t, files) xs).2 = (t, files') := Prod.ext hhandle rfl
  obtain ⟨last, text', rows, hfile, -, hread, hrows, hmutation⟩ :=
    mutation_succeeds_iff FileTree.isTree_empty hcreate hids hrun rfl
  obtain rfl : last = "T.tbl" := Option.some.inj (hfile.symm.trans (by decide +kernel))
  have hread' : files'.readText t.path = .ok text := by decide +kernel
  obtain rfl : text' = text := Except.ok.inj (hread.symm.trans hread')
  have hrows' : readEntries schema text =
      .ok [{ id := "0000000000000005", data := [("v", .int 1)] }] := by
    cbv
  obtain rfl : rows = _ := Except.ok.inj (hrows.symm.trans hrows')
  obtain ⟨answer, u, hremove⟩ := (hmutation ⟨"", 0⟩ (.remove "T" .all) .all rfl rfl trivial
    ⟨List.forall_mem_nil _, _, List.mem_singleton_self _, List.forall_mem_nil _⟩).1.2
      (by decide +kernel)
  exact ⟨t, files, files', answer, u, hcreate, hrun, hremove⟩

/-- A table whose file has a name of 251 bytes can be made and entries can be added to it, but none
can be removed. -/
theorem mutation_fails_of_long_name :
    ∃ t files files' text rows,
      create { dataDir := "" } (String.ofList (List.replicate 247 'a')) ⟨[⟨"v", .integer⟩]⟩
        ⟨[], []⟩ = .ok t files ∧
      (runSteps stepFiles (t, files) [(⟨EntryId.ofWord 5, 0⟩, .add t.name [.bare "1"])]).2 =
        (t, files') ∧
      t.dropped = false ∧ files'.readText t.path = .ok text ∧
      readEntries t.schema text = .ok rows ∧ Target.all.Matches t.schema rows ∧
      t.query ⟨"", 0⟩ (.remove t.name .all) files' = .error (.io t.temporaryPath "InvalidFilename"
        "File name too long (os error 36)") files' := by
  have hcheck := check_letters
  have hsize : (String.ofList (List.replicate 247 'a')).utf8ByteSize = 247 := by decide +kernel
  have hletters {c : Char} (hc : c ≠ 'a') :
      c ∉ (String.ofList (List.replicate 247 'a')).toList := by
    rw [String.toList_ofList]
    exact fun hmem => hc (List.eq_of_mem_replicate hmem)
  -- nothing else matters about the name
  generalize String.ofList (List.replicate 247 'a') = name at *
  have hlong : (name ++ "." ++ "tbl").utf8ByteSize = 251 := by rw [utf8ByteSize_fileName, hsize]
  obtain ⟨t, files, hcreate, hfile, htemporary⟩ :=
    exists_create hcheck (by decide : Schema.check ⟨[⟨"v", .integer⟩]⟩ = .ok ())
      (hletters (by decide)) (hletters (by decide)) (by rw [hsize]; decide)
  have hcreated := create_effect { dataDir := "" } name ⟨[⟨"v", .integer⟩]⟩ ⟨[], []⟩
  rw [hcreate] at hcreated
  obtain ⟨place, -, hleads, hheader, -⟩ :=
    hcreated.exists_place fun _ _ => Created.find?_ne_none_of_isTree FileTree.isTree_empty
  have hlive : t.dropped = false := by rw [hcreated.handle]
  have hschema : t.schema = ⟨[⟨"v", .integer⟩]⟩ := by rw [hcreated.handle]
  have hrow : newRow t.schema [.bare "1"] = .ok [("v", .int 1)] := by
    rw [hschema]
    decide
  obtain ⟨files', hadd, hholds⟩ := (hcreated.holds hleads hheader).exists_add
    (c := ⟨EntryId.ofWord 5, 0⟩) (isRecordId_ofWord 5) hrow
  have hmatches :
      Target.all.Matches t.schema [{ id := EntryId.ofWord 5, data := [("v", .int 1)] }] :=
    ⟨List.forall_mem_nil _, _, List.mem_singleton_self _, List.forall_mem_nil _⟩
  have hremove := (hholds.mutation hcreated.isMade hlive hfile (q := .remove t.name .all) rfl rfl
    trivial hmatches ⟨"", 0⟩).2 (by rw [hlong]; decide)
    (by rw [htemporary, utf8ByteSize_temporaryName, hlong]; decide)
  refine ⟨t, files, files', _, _, hcreate, ?_, hlive, hholds.readText,
    hholds.readEntries hcreated.isMade, hmatches, hremove⟩
  simp only [runSteps, stepFiles, query_of_live hlive, run, bind, EStateM.bind, hadd]
  rfl

end Table

end RecordStore

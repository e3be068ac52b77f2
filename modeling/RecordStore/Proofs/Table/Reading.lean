import RecordStore.Proofs.Record.Tiling
import RecordStore.Proofs.Table.Splicing

/-!
# Reading a table

A query that reads a table answers the entries of the records that it selects and leaves everything
as it is. If it asks for all of them, it reads every byte of the file: what a reader finds in a text
leaves out nothing but blanks.

- `query_get_eq`: what a query that reads answers; `query_get_eq_ok_iff`: when it succeeds;
- `query_get_covers`: the bytes of a file whose entries were answered;
- `records_tile`: what a reader finds in any text, and what a table has read of its file.
-/

namespace RecordStore

open Text (bytes)

namespace Table

variable {t t' : Table} {c : Circumstances} {table : String} {target : Target}
  {files files' : FileTree} {answer : EntrySet}

/-- A query that reads answers the entries of the records that it selects. -/
theorem query_get_eq {text : String} (hlive : t.dropped = false)
    (hread : files.readText t.path = .ok text) :
    t.query c (.get table target) files =
      match t.select text target with
      | .ok selected => .ok (selected.map fun s => s.entry.timed c.elapsed, t) files
      | .error e => .error e files := by
  rw [query_of_live hlive]
  simp only [run, get, bind, EStateM.bind, readText_eq hread]
  cases t.select text target <;> rfl

/-- It succeeds if the file is a text in which the records can be selected. -/
theorem query_get_eq_ok_iff :
    t.query c (.get table target) files = .ok (answer, t') files' ↔
      t.dropped = false ∧ ∃ text selected, files.readText t.path = .ok text ∧
        t.select text target = .ok selected ∧
        answer = selected.map (fun s => s.entry.timed c.elapsed) ∧ t' = t ∧ files' = files := by
  cases hdropped : t.dropped with
  | true =>
    rw [query, if_pos hdropped]
    exact ⟨by rintro ⟨⟩, by rintro ⟨⟨⟩, -⟩⟩
  | false =>
    cases hread : files.readText t.path with
    | error fault =>
      have hfails : Disk.readText t.path files = .error (Disk.failure t.path fault) files := by
        rw [Disk.readText, Disk.ask, hread]
      rw [query_of_live hdropped]
      simp only [run, get, bind, EStateM.bind, hfails]
      exact ⟨by rintro ⟨⟩, by rintro ⟨-, text, selected, ⟨⟩, -⟩⟩
    | ok text =>
      rw [query_get_eq hdropped hread]
      cases hselect : t.select text target with
      | error e => simp [hselect]
      | ok selected => simp [hselect, eq_comm, and_assoc]

end Table

/-- Where records could be selected, all records could be decoded, and the selected ones are those
whose entries satisfy the conditions. -/
theorem exists_entries_of_selectWhere {schema : Schema} {conditions : List Condition}
    {found : List (Except Corruption RawRecord)} {selected : List Selected}
    (h : Table.selectWhere schema conditions found = .ok selected) :
    ∃ entries, found.mapM (fun r => r.bind (·.decode schema)) = .ok entries ∧
      selected.map Selected.entry = entries.filter fun e => conditions.all (·.holds e) := by
  induction found generalizing selected with
  | nil =>
    cases h
    exact ⟨[], rfl, rfl⟩
  | cons item found ih =>
    cases item with
    | error e => cases h
    | ok r =>
      obtain ⟨e, he, h⟩ := bind_eq_ok_iff.1 h
      obtain ⟨others, hothers, h⟩ := bind_eq_ok_iff.1 h
      obtain ⟨entries, hentries, hfilter⟩ := ih hothers
      refine ⟨e :: entries, mapM_cons_eq_ok_iff.2 ⟨e, entries, rfl, he, hentries⟩, ?_⟩
      rw [List.filter_cons, ← hfilter]
      cases hholds : conditions.all (·.holds e) <;> rw [hholds] at h <;> cases h <;> rfl

/-! ## Every byte of a file -/

/-- A table that answers all its entries has read every byte of its file. -/
theorem query_get_covers {t t' : Table} {c : Circumstances} {table : String}
    {files files' : FileTree} {answer : EntrySet}
    (h : t.query c (.get table (.dependencies [])) files = .ok (answer, t') files') :
    ∃ (text : String) (header : Header), files.readText t.path = .ok text ∧
      Header.decode text = .ok header ∧
      ∀ i b, header.length ≤ i → (bytes text.toList)[i]? = some b →
        Walk.isBlankByte b = true ∨
          ∃ r e, .ok r ∈ recordsFrom text header.length ∧ r.start ≤ i ∧ i < r.stop ∧
            r.decode t.schema = .ok e ∧ e.timed c.elapsed ∈ answer := by
  obtain ⟨-, text, selected, hread, hselect, rfl, -⟩ := Table.query_get_eq_ok_iff.1 h
  obtain ⟨header, hheader, hselect⟩ := bind_eq_ok_iff.1 hselect
  have hdecode := mapError_eq_ok_iff.1 hheader
  obtain ⟨entries, hentries, hselected⟩ :=
    exists_entries_of_selectWhere (mapError_eq_ok_iff.1 hselect)
  -- every entry satisfies all of no conditions
  replace hselected : selected.map Selected.entry = entries :=
    hselected.trans (List.filter_eq_self.2 fun _ _ => rfl)
  obtain ⟨raws, hfound, hdecoded⟩ := exists_raws hentries
  refine ⟨text, header, hread, hdecode, fun i b hi hbyte => ?_⟩
  have hlt : i < (bytes text.toList).length := (List.getElem?_eq_some_iff.1 hbyte).1
  rw [Text.length_bytes, Text.utf8Length_toList] at hlt
  obtain ⟨raws', faults, last, hrecords, htiles, -, -, hend⟩ :=
    exists_tiles_recordsFrom (hi.trans hlt.le)
  obtain ⟨rfl, rfl⟩ := eq_of_map_ok_eq_append (hfound.symm.trans hrecords)
  by_cases hlast : i < last
  · refine (htiles.covers hi hlast hbyte).imp_right fun ⟨r, hr, hstart, hstop⟩ => ?_
    obtain ⟨e, he, hre⟩ := exists_of_mem_of_mapM hdecoded hr
    refine ⟨r, e, ?_, hstart, hstop, hre, ?_⟩
    · rw [hfound]
      exact List.mem_map_of_mem hr
    · obtain ⟨s, hs, rfl⟩ := List.mem_map.1 (hselected.symm ▸ he)
      exact List.mem_map_of_mem hs
  · exact .inl ((hend rfl).isBlankByte (Nat.not_lt.1 hlast) hlt hbyte)

/-- A reader that is started at any byte of a text comes to an end. It finds records that stand in
the text one after the other, with nothing but blanks in front of each, and at most one fault,
which is the last thing that it finds and lies behind them. Without a fault there are but blanks
behind the last record. So if all entries of a table are asked for and are answered, every byte
behind the header of its file is a blank or one of a record whose entry is in the answer. -/
theorem records_tile :
    (∀ (text : String) (offset : Nat), offset ≤ text.utf8ByteSize →
      ∃ (raws : List RawRecord) (faults : List Corruption) (last : Nat),
        Walk.read text.toList offset = some (recordsFrom text offset) ∧
        recordsFrom text offset = raws.map .ok ++ faults.map .error ∧
        Tiles text.toList offset raws last ∧
        last = (raws.getLast?.map RawRecord.stop).getD offset ∧
        (∀ r ∈ raws, offset ≤ r.start ∧ r.start < r.stop ∧ r.stop ≤ text.utf8ByteSize) ∧
        raws.Pairwise (fun a b => a.stop ≤ b.start) ∧
        faults.length ≤ 1 ∧ (∀ e ∈ faults, last ≤ e.offset ∧ e.offset < text.utf8ByteSize) ∧
        (faults = [] → BlankBetween text.toList last text.utf8ByteSize)) ∧
    ∀ (t t' : Table) (c : Circumstances) (table : String) (files files' : FileTree)
      (answer : EntrySet),
      t.query c (.get table (.dependencies [])) files = .ok (answer, t') files' →
      ∃ (text : String) (header : Header), files.readText t.path = .ok text ∧
        Header.decode text = .ok header ∧
        ∀ i b, header.length ≤ i → (bytes text.toList)[i]? = some b →
          Walk.isBlankByte b = true ∨
            ∃ r e, .ok r ∈ recordsFrom text header.length ∧ r.start ≤ i ∧ i < r.stop ∧
              r.decode t.schema = .ok e ∧ e.timed c.elapsed ∈ answer := by
  refine ⟨fun text offset hoffset => ?_, fun _ _ _ _ _ _ _ => query_get_covers⟩
  obtain ⟨raws, faults, last, hrecords, htiles, hfaults⟩ := exists_tiles_recordsFrom hoffset
  obtain ⟨-, hwithin, hpairwise, hlast⟩ := htiles.pairwise
  rw [Text.utf8Length_toList] at hwithin
  exact ⟨raws, faults, last, Walk.read_eq_recordsFrom text offset, hrecords, htiles, hlast,
    hwithin, hpairwise, hfaults⟩

/-- Two records, the second of which holds an escaped brace, in front of a third that does not end;
and a file with blanks around its only record. -/
theorem records_tile_escaped_brace :
    ∃ (text : String) (t : Table) (files : FileTree),
      text = "\n\x7ba;S:é\x7d \x7bb;S:\\\x7d,I:1\x7d\x7bc" ∧
      t = { name := "T", schema := ⟨[⟨"A", .integer⟩]⟩, path := "t" } ∧
      files = ⟨[(["t"], .file "[T,0:A] \x7ba;I:+5\x7d\n".toUTF8)], []⟩ ∧
      (recordsFrom text 0).length = 3 ∧
      (∃ (raws : List RawRecord) (faults : List Corruption) (last : Nat),
        recordsFrom text 0 = raws.map .ok ++ faults.map .error ∧
        Tiles text.toList 0 raws last ∧ faults.length ≤ 1 ∧
        ∀ e ∈ faults, last ≤ e.offset ∧ e.offset < text.utf8ByteSize) ∧
      ∃ result files',
        t.query ⟨"", 0⟩ (.get "T" (.dependencies [])) files = .ok result files' ∧
        ∃ (text : String) (header : Header), files.readText t.path = .ok text ∧
          Header.decode text = .ok header ∧
          ∀ i b, header.length ≤ i → (bytes text.toList)[i]? = some b →
            Walk.isBlankByte b = true ∨
              ∃ r e, .ok r ∈ recordsFrom text header.length ∧ r.start ≤ i ∧ i < r.stop ∧
                r.decode t.schema = .ok e ∧ e.timed 0 ∈ result.1 := by
  refine ⟨_, _, _, rfl, rfl, rfl, by decide +kernel, ?_, ?_⟩
  · obtain ⟨raws, faults, last, -, hrecords, htiles, -, -, -, hlength, hfaults, -⟩ :=
      records_tile.1 "\n\x7ba;S:é\x7d \x7bb;S:\\\x7d,I:1\x7d\x7bc" 0 (Nat.zero_le _)
    exact ⟨raws, faults, last, hrecords, htiles, hlength, hfaults⟩
  · refine exists_of_succeeds (p := fun _ _ => true) (by decide +kernel) ?_
    intro result files' hrun _
    exact records_tile.2 _ result.2 ⟨"", 0⟩ "T" _ files' result.1 hrun

end RecordStore

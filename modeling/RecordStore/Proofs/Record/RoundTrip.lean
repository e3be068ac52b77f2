import RecordStore.Proofs.Record.Header
import RecordStore.Proofs.Record.Layout

/-!
# A table file is read back

A file is written as a header and one record for each entry, and blanks may have been put after any
of them. Reading finds the same header, and one record for each entry at the bytes where it was
written, which holds the entry.

- `recordsFrom_pieces`: where the records of a text are found;
- `fileChars`: the text of such a file;
- `read_fileChars`: what is found in it.
-/

namespace RecordStore

namespace Piece

theorem length_found (pos : Nat) (ps : List Piece) : (found pos ps).length = ps.length := by
  induction ps generalizing pos with
  | nil => rfl
  | cons p ps ih => rw [found, List.length_cons, List.length_cons, ih]

/-- A record is found after the text of the pieces before it. -/
theorem getElem_found (pos : Nat) (ps : List Piece) (i : Nat) (h : i < (found pos ps).length) :
    (found pos ps)[i] = (ps.get ⟨i, length_found pos ps ▸ h⟩).record.found
      (pos + Text.utf8Length ((ps.take i).flatMap chars)) := by
  induction ps generalizing pos i with
  | nil => exact absurd h (Nat.not_lt_zero i)
  | cons p ps ih =>
    cases i with
    | zero => rfl
    | succ i =>
      simp only [found, List.getElem_cons_succ, List.get_eq_getElem, ih, List.take_succ_cons,
        List.flatMap_cons, Text.utf8Length_append, Nat.add_assoc]

end Piece

/-- Pieces that stand after a text and blanks are found from there on, each at its own bytes. -/
theorem recordsFrom_pieces (before : List Char) {gap : List Char}
    (hgap : ∀ c ∈ gap, Text.isAsciiBlank c = true) (ps : List Piece) :
    ∃ raws : List RawRecord,
      recordsFrom (String.ofList (before ++ (gap ++ ps.flatMap Piece.chars)))
          (Text.utf8Length before) = raws.map .ok ∧
        raws.length = ps.length ∧
        ∀ (i : Nat) (hraw : i < raws.length) (hp : i < ps.length),
          raws[i] = ps[i].record.found
            (Text.utf8Length (before ++ (gap ++ (ps.take i).flatMap Piece.chars))) := by
  refine ⟨Piece.found (Text.utf8Length before + Text.utf8Length gap) ps, ?_, ?_, ?_⟩
  · rw [recordsFrom, String.toList_ofList, dropBytes?_append]
    exact records_pieces hgap _ _
  · exact Piece.length_found _ _
  · intro i hraw hp
    rw [Piece.getElem_found, List.get_eq_getElem, Text.utf8Length_append, Text.utf8Length_append,
      Nat.add_assoc]

/-- A record of an entry, and blanks after it. -/
def rowChars (row : Entry × List Char) : List Char := row.1.encodeChars ++ row.2

/-- A table file: the header, blanks, and for each entry its record and blanks after it. -/
def fileChars (name : String) (schema : Schema) (gap : List Char)
    (rows : List (Entry × List Char)) : List Char :=
  Header.encodeChars name schema ++ gap ++ rows.flatMap rowChars

/-- An entry that a file with a schema can hold, with blanks after its record. -/
def IsRow (schema : Schema) (row : Entry × List Char) : Prop :=
  IsRecordId row.1.id ∧ row.1.Fits schema ∧ ∀ c ∈ row.2, Text.isAsciiBlank c = true

instance (schema : Schema) (row : Entry × List Char) : Decidable (IsRow schema row) :=
  haveI : Decidable (∀ c ∈ row.2, Text.isAsciiBlank c = true) := List.decidableBAll _ _
  inferInstanceAs (Decidable (_ ∧ _ ∧ _))

/-- The piece of a file that a row becomes. -/
def Piece.ofRow {schema : Schema} (row : { row // IsRow schema row }) : Piece where
  record := row.1.1.record row.2.1
  gap := row.1.2
  blank := row.2.2.2

theorem flatMap_ofRow {schema : Schema} (rows : List { row // IsRow schema row }) :
    (rows.map Piece.ofRow).flatMap Piece.chars = (rows.map Subtype.val).flatMap rowChars := by
  rw [List.flatMap_map, List.flatMap_map]
  rfl

/-- Reading a file that was written finds the header, and for each entry in order one record, which
takes exactly the bytes that were written for the entry, holds the entry, and is followed by no
fault. -/
theorem read_fileChars {name : String} {schema : Schema} {gap : List Char}
    {rows : List (Entry × List Char)} (hname : Name.check name = .ok ())
    (hschema : schema.check = .ok ()) (hgap : ∀ c ∈ gap, Text.isAsciiBlank c = true)
    (hrows : ∀ row ∈ rows, IsRow schema row) :
    Header.decode (String.ofList (fileChars name schema gap rows)) =
        .ok { name, schema, length := (Header.encode name schema).utf8ByteSize } ∧
      ∃ raws : List RawRecord,
        recordsFrom (String.ofList (fileChars name schema gap rows))
            (Header.encode name schema).utf8ByteSize = raws.map .ok ∧
          raws.length = rows.length ∧
          ∀ (i : Nat) (hraw : i < raws.length) (hrow : i < rows.length),
            raws[i].start = Text.utf8Length (fileChars name schema gap (rows.take i)) ∧
              raws[i].stop = raws[i].start + rows[i].1.encode.utf8ByteSize ∧
              raws[i].decode schema = .ok rows[i].1.stored := by
  have hlength : (Header.encode name schema).utf8ByteSize =
      Text.utf8Length (Header.encodeChars name schema) := by
    rw [← Text.utf8Length_toList, Header.encode, String.toList_ofList]
  -- the rows carry their proofs, since each has to become a piece
  lift rows to List { row // IsRow schema row } using hrows
  obtain ⟨raws, hraws, hcount, hfound⟩ :=
    recordsFrom_pieces (Header.encodeChars name schema) hgap (rows.map Piece.ofRow)
  refine ⟨?_, raws, ?_, ?_, ?_⟩
  · rw [Header.decode, String.toList_ofList, fileChars, List.append_assoc, hlength]
    exact Header.decodeChars_encodeChars hname hschema _
  · rw [fileChars, List.append_assoc, hlength, ← flatMap_ofRow, hraws]
  · rw [hcount, List.length_map, List.length_map]
  · intro i hraw hrow
    have hi : i < rows.length := by simpa using hrow
    have hrow : rows[i].1.1.encodeChars = (Piece.ofRow rows[i]).record.chars := rfl
    rw [hfound i hraw (by simpa using hi)]
    simp only [List.getElem_map, Record.found]
    refine ⟨?_, ?_, ?_⟩
    · rw [← List.map_take, flatMap_ofRow, fileChars, List.map_take, List.append_assoc]
    · rw [← Text.utf8Length_toList, Entry.encode, String.toList_ofList, hrow]
    · exact Record.decode_found_eq_ok_iff.2 (Entry.holds_record rows[i].2.1 rows[i].2.2.1)

/-- A file with two entries. The string of one ends in a backslash, and that of the other one has a
character of two bytes and a brace that does not end the record. -/
theorem read_fileChars_two_rows :
    ∃ (schema : Schema) (a b : Entry) (text : String) (r s : RawRecord),
      schema = ⟨[⟨"A", .string⟩, ⟨"B", .decimal⟩]⟩ ∧
      a = { id := "1", data := [("A", .str "\\"), ("B", .dec 0.1)], queryTime := some 3 } ∧
      b = { id := "2", data := [("A", .str "é\x7d"), ("B", .dec (-2))] } ∧
      text = String.ofList (fileChars "T" schema ['\n'] [(a, [' ', '\t']), (b, [])]) ∧
      text = "[T,2:A,1:B]\n\x7b1;S:\\\\,D:0.1\x7d \t\x7b2;S:é\\\x7d,D:-2.0\x7d" ∧
      Header.decode text = .ok ⟨"T", schema, 11⟩ ∧ recordsFrom text 11 = [.ok r, .ok s] ∧
      r.start = 12 ∧ r.stop = 26 ∧ r.decode schema = .ok { a with queryTime := none } ∧
      s.start = 28 ∧ s.stop = 45 ∧ s.decode schema = .ok b := by
  let schema : Schema := ⟨[⟨"A", .string⟩, ⟨"B", .decimal⟩]⟩
  let a : Entry := { id := "1", data := [("A", .str "\\"), ("B", .dec 0.1)], queryTime := some 3 }
  let b : Entry := { id := "2", data := [("A", .str "é\x7d"), ("B", .dec (-2))] }
  let rows : List (Entry × List Char) := [(a, [' ', '\t']), (b, [])]
  have htext : String.ofList (fileChars "T" schema ['\n'] rows) =
      "[T,2:A,1:B]\n\x7b1;S:\\\\,D:0.1\x7d \t\x7b2;S:é\\\x7d,D:-2.0\x7d" := by
    decide +kernel
  have hlength : (Header.encode "T" schema).utf8ByteSize = 11 := by decide
  have hrows : ∀ row ∈ rows, IsRow schema row :=
    List.forall_mem_cons.2 ⟨by decide, List.forall_mem_singleton.2 (by decide)⟩
  obtain ⟨hheader, raws, hraws, hcount, hfound⟩ := @read_fileChars "T" schema ['\n'] rows
    (by decide) (by decide) (List.forall_mem_singleton.2 (by decide)) hrows
  rw [hlength] at hheader hraws
  obtain ⟨r, s, rfl⟩ := List.length_eq_two.1 hcount
  obtain ⟨hstart, hstop, hdecode⟩ := hfound 0 Nat.zero_lt_two Nat.zero_lt_two
  obtain ⟨hstart', hstop', hdecode'⟩ := hfound 1 Nat.one_lt_two Nat.one_lt_two
  have hr : r.start = 12 := hstart.trans (by decide)
  have hs : s.start = 28 := hstart'.trans (by decide +kernel)
  have ha : a.encode.utf8ByteSize = 14 := by decide +kernel
  have hb : b.encode.utf8ByteSize = 17 := by decide +kernel
  refine ⟨schema, a, b, _, r, s, rfl, rfl, rfl, rfl, htext, hheader, hraws, hr, ?_, hdecode, hs, ?_,
    hdecode'⟩
  · exact hstop.trans (congrArg₂ (· + ·) hr ha)
  · exact hstop'.trans (congrArg₂ (· + ·) hs hb)

end RecordStore

import RecordStore.Proofs.Record.Fields
import RecordStore.Proofs.Sequence
import RecordStore.Proofs.Text.Bytes

/-!
# Records without their positions

Whether a text starts with a record, and which entry the record holds, does not depend on where the
text stands in its file nor on what follows. So a file can be taken apart into records and blanks,
and put together again from other ones.

- `Record`: the parts of a record that can be found again (`exists_record_of_scanRecord`);
- `Record.Holds`: the entry of a record under a schema, wherever the record stands;
- `Piece`: a record and the blanks after it; `records_pieces` and `exists_pieces` say that pieces
  are what the readable files consist of, `exists_pieces_append` that every text consists of pieces
  and a rest in which no record starts, so that only records are found in it
  (`exists_record_of_mem_recordsFrom`);
- `Entry.record`: the record of an entry that fits a schema, which holds the entry.
-/

namespace RecordStore

/-! ## One record -/

/-- Whether a character may be part of the id of a record. -/
def isIdChar (c : Char) : Bool := c != ';' && c != '{' && c != '}' && c != ','

/-- An id that is found again in a record: not empty, and free of the characters around it. -/
def IsRecordId (id : String) : Prop := id.toList ≠ [] ∧ ∀ c ∈ id.toList, isIdChar c = true

instance (id : String) : Decidable (IsRecordId id) :=
  haveI : Decidable (∀ c ∈ id.toList, isIdChar c = true) := List.decidableBAll _ _
  inferInstanceAs (Decidable (_ ∧ _))

/-- The id and the body of a record, wherever it stands. -/
structure Record where
  id : List Char
  body : List Char
  id_ne_nil : id ≠ []
  id_plain : ∀ c ∈ id, isIdChar c = true
  enclosed : Enclosed .atStart body

namespace Record

/-- The text of the record. -/
def chars (r : Record) : List Char := '{' :: r.id ++ ';' :: r.body ++ ['}']

/-- The record as it is found at a byte position. -/
def found (r : Record) (start : Nat) : RawRecord where
  start := start
  stop := start + Text.utf8Length r.chars
  id := String.ofList r.id
  body := String.ofList r.body

/-- The entry that the record holds under a schema. -/
def Holds (r : Record) (schema : Schema) (e : Entry) : Prop := (r.found 0).decode schema = .ok e

theorem isRecordId (r : Record) : IsRecordId (String.ofList r.id) := by
  rw [IsRecordId, String.toList_ofList]
  exact ⟨r.id_ne_nil, r.id_plain⟩

/-- The scan of a record goes this far. -/
theorem utf8Length_chars (r : Record) :
    Text.utf8Length r.chars = Text.utf8Length r.id + Text.utf8Length r.body + 3 := by
  have hopen : ('{').utf8Size = 1 := by decide
  have hclose : ('}').utf8Size = 1 := by decide
  have hid : (';').utf8Size = 1 := by decide
  simp only [chars, Text.utf8Length_append, Text.utf8Length_cons, Text.utf8Length_nil,
    List.cons_append, hopen, hclose, hid]
  omega

end Record

/-- The scan finds an id exactly if one is there, wherever it stands. -/
theorem scanId_eq_ok_iff {start pos : Nat} {cs id rest : List Char} :
    scanId start pos cs = .ok (id, rest) ↔
      cs = id ++ ';' :: rest ∧ ∀ c ∈ id, isIdChar c = true := by
  constructor
  · intro h
    refine ⟨eq_append_of_scanId h, ?_⟩
    induction cs generalizing pos id with
    | nil => cases h
    | cons c cs ih =>
      rw [scanId] at h
      split at h
      · cases h
        exact List.forall_mem_nil _
      · next hend =>
        split at h
        · cases h
        · next hbad =>
          simp only [Bool.or_eq_true, decide_eq_true_eq, not_or] at hbad
          obtain ⟨tail, rfl, htail⟩ := consScanned_eq_ok h
          exact List.forall_mem_cons.2 ⟨by simp [isIdChar, hend, hbad], ih htail⟩
  · rintro ⟨rfl, h⟩
    induction id generalizing pos with
    | nil => simp [scanId]
    | cons c id ih =>
      obtain ⟨hc, hid⟩ := List.forall_mem_cons.1 h
      simp only [isIdChar, Bool.and_eq_true, bne_iff_ne] at hc
      rw [List.cons_append, scanId, if_neg hc.1.1.1, if_neg (by simp [hc]), ih hid]
      rfl

/-- What the scan finds is a record, with its first and last byte. -/
theorem exists_record_of_scanRecord {start : Nat} {cs rest : List Char} {raw : RawRecord}
    (h : scanRecord start cs = .ok (raw, rest)) :
    ∃ r : Record, cs = r.chars ++ rest ∧ raw = r.found start := by
  unfold scanRecord at h
  split at h
  · next cs =>
    split at h
    · cases h
    · cases h
    · next id afterId hne hid =>
      split at h
      · cases h
      · next body rest' hbody =>
        obtain ⟨rfl, hplain⟩ := scanId_eq_ok_iff.1 hid
        obtain ⟨rfl, henclosed⟩ := scanBody_eq_ok_iff.1 hbody
        simp only [Except.ok.injEq, Prod.mk.injEq] at h
        obtain ⟨rfl, rfl⟩ := h
        refine ⟨⟨id, body, hne, hplain, henclosed⟩, by simp [Record.chars], ?_⟩
        rw [Record.found, Record.utf8Length_chars]
        simp only [RawRecord.mk.injEq, true_and, and_true]
        omega
  · cases h

/-- A record is found wherever it stands. -/
theorem Record.scanRecord_chars (r : Record) (start : Nat) (rest : List Char) :
    scanRecord start (r.chars ++ rest) = .ok (r.found start, rest) := by
  have hid : scanId start (start + 1) (r.id ++ ';' :: (r.body ++ '}' :: rest)) =
      .ok (r.id, r.body ++ '}' :: rest) := scanId_eq_ok_iff.2 ⟨rfl, r.id_plain⟩
  have hbody : scanBody start (start + Text.utf8Length r.id + 2) .atStart
      (r.body ++ '}' :: rest) = .ok (r.body, rest) := scanBody_eq_ok_iff.2 ⟨rfl, r.enclosed⟩
  have hchars : r.chars ++ rest = '{' :: (r.id ++ ';' :: (r.body ++ '}' :: rest)) := by
    simp [Record.chars]
  have hstop : start + Text.utf8Length r.id + Text.utf8Length r.body + 3 =
      start + Text.utf8Length r.chars := by
    rw [Record.utf8Length_chars]
    omega
  rw [hchars, scanRecord, hid]
  -- the scan refuses an empty id, which a record does not have
  split
  · next heq => cases heq
  · next heq =>
    simp only [Except.ok.injEq, Prod.mk.injEq] at heq
    exact absurd heq.1 r.id_ne_nil
  · next heq =>
    cases heq
    rw [hbody]
    simp only [hstop, Record.found]

/-! ## The entry of a record -/

/-- The names and the types of the values of an entry. -/
def Entry.columns (e : Entry) : List Column :=
  e.data.map fun p => { name := p.1, type := p.2.storageType }

/-- Whether an entry has one value for each column of a schema, in order and of its type. -/
def Entry.Fits (e : Entry) (schema : Schema) : Prop := e.columns = schema.columns

instance (e : Entry) (schema : Schema) : Decidable (e.Fits schema) :=
  inferInstanceAs (Decidable (_ = _))

/-- The entry as it is stored, which does not say how long a query took. -/
def Entry.stored (e : Entry) : Entry := { e with queryTime := none }

/-- An entry as a file holds it: it fits the schema, its id is found again, and it does not say how
long a query took. -/
structure Entry.IsStored (schema : Schema) (e : Entry) : Prop where
  fits : e.Fits schema
  isRecordId : IsRecordId e.id
  stored_eq : e.stored = e

theorem RawRecord.decode_eq_ok_iff {raw : RawRecord} {schema : Schema} {e : Entry} :
    raw.decode schema = .ok e ↔
      (splitFields raw.body.toList).length = schema.columns.length ∧
        ((splitFields raw.body.toList).zip schema.columns).mapM
          (fun (field, column) => decodeField field column) = .ok e.data ∧
        raw.id = e.id ∧ e.queryTime = none := by
  obtain ⟨id, data, queryTime⟩ := e
  unfold RawRecord.decode Schema.size
  dsimp only
  split
  · next hlength =>
    constructor
    · intro h
      cases h
    · intro h
      exact absurd h.1 hlength
  · next hlength =>
    rw [Decidable.not_not] at hlength
    split
    · next data' hdata =>
      simp only [hlength, hdata, Except.ok.injEq, Entry.mk.injEq, true_and, eq_comm (a := none)]
      exact and_left_comm
    · next fault hfault =>
      rw [hfault]
      simp

/-- A record holds the same entry wherever it stands. -/
theorem Record.decode_found_eq_ok_iff {r : Record} {start : Nat} {schema : Schema} {e : Entry} :
    (r.found start).decode schema = .ok e ↔ r.Holds schema e := by
  rw [Record.Holds, RawRecord.decode_eq_ok_iff, RawRecord.decode_eq_ok_iff]
  rfl

theorem storageType_of_decode? {type : StorageType} {field : List Char} {v : Value}
    (h : Value.decode? type field = some v) : v.storageType = type := by
  unfold Value.decode? at h
  split at h
  · next content =>
    split at h
    · cases type with
      | integer =>
        obtain ⟨n, -, rfl⟩ := Option.map_eq_some_iff.1 h
        rfl
      | decimal =>
        obtain ⟨x, -, rfl⟩ := Option.map_eq_some_iff.1 h
        rfl
      | string =>
        cases h
        rfl
    · cases h
  · cases h

theorem column_of_decodeField {field : List Char} {column : Column} {p : String × Value}
    (h : decodeField field column = .ok p) : Column.mk p.1 p.2.storageType = column := by
  unfold decodeField at h
  split at h
  · next v hv =>
    cases h
    rw [storageType_of_decode? hv]
  · cases h

theorem columns_of_mapM_decodeField {fields : List (List Char)} {columns : List Column}
    {data : List (String × Value)} (hlength : fields.length = columns.length)
    (h : (fields.zip columns).mapM (fun (field, column) => decodeField field column) = .ok data) :
    data.map (fun p => Column.mk p.1 p.2.storageType) = columns := by
  induction fields generalizing columns data with
  | nil =>
    rw [List.length_nil, eq_comm, List.length_eq_zero_iff] at hlength
    subst hlength
    cases h
    rfl
  | cons field fields ih =>
    obtain ⟨column, columns, rfl⟩ := List.exists_cons_of_length_eq_add_one hlength.symm
    obtain ⟨p, tail, rfl, hp, htail⟩ := mapM_cons_eq_ok_iff.1 h
    rw [List.map_cons, ih (Nat.succ.inj hlength) htail, column_of_decodeField hp]

/-- An entry that is read from a record is one that a file can hold. -/
theorem Record.Holds.isStored {r : Record} {schema : Schema} {e : Entry} (h : r.Holds schema e) :
    e.IsStored schema := by
  obtain ⟨hlength, hdata, hid, htime⟩ := RawRecord.decode_eq_ok_iff.1 h
  refine ⟨columns_of_mapM_decodeField hlength hdata, hid ▸ r.isRecordId, ?_⟩
  rw [Entry.stored, ← htime]

/-- The record of an entry. -/
def Entry.record (e : Entry) (hid : IsRecordId e.id) : Record where
  id := e.id.toList
  body := Text.join [','] (e.values.map Value.encode)
  id_ne_nil := hid.1
  id_plain := hid.2
  enclosed := enclosed_join (List.forall_mem_map.2 fun v _ => isField_encode v)

theorem Entry.chars_record (e : Entry) (hid : IsRecordId e.id) :
    (e.record hid).chars = e.encodeChars := rfl

/-- Whether a value is read back from its field when it is written in this way. -/
def Value.IsReadFrom (write : Value → List Char) (v : Value) : Prop :=
  IsField (write v) ∧ Value.decode? v.storageType (write v) = some v

/-- A record holds an entry that fits the schema if its fields are the values of the entry, in a way
of writing from which each of them is read back. -/
theorem Record.holds_of_join {r : Record} {e : Entry} {schema : Schema}
    {write : Value → List Char} (hid : r.id = e.id.toList)
    (hbody : r.body = Text.join [','] (e.values.map write))
    (hwrite : ∀ v ∈ e.values, v.IsReadFrom write) (hfits : e.Fits schema) :
    r.Holds schema e.stored := by
  have hfields : splitFields (r.found 0).body.toList = e.data.map fun p => write p.2 := by
    rw [Record.found, String.toList_ofList, hbody,
      splitFields_join (List.forall_mem_map.2 fun v hv => (hwrite v hv).1), Entry.values,
      List.map_map]
    rfl
  have hcolumns : schema.columns = e.data.map fun p => ⟨p.1, p.2.storageType⟩ := hfits.symm
  have hrid : (r.found 0).id = e.id := by
    rw [Record.found, hid, String.ofList_toList]
  refine RawRecord.decode_eq_ok_iff.2 ⟨?_, ?_, hrid, rfl⟩
  · rw [hfields, hcolumns, List.length_map, List.length_map]
  · rw [hfields, hcolumns, List.zip_map', mapM_eq_ok_iff, List.forall₂_map_left_iff]
    refine List.forall₂_same.2 fun p hp => ?_
    show decodeField (write p.2) _ = _
    rw [decodeField, (hwrite p.2 (List.mem_map_of_mem hp)).2]

/-- The record of an entry that fits the schema holds the entry. -/
theorem Entry.holds_record {e : Entry} {schema : Schema} (hid : IsRecordId e.id)
    (hfits : e.Fits schema) : (e.record hid).Holds schema e.stored :=
  Record.holds_of_join rfl rfl (fun v _ => ⟨isField_encode v, decode?_encode v⟩) hfits

/-- The record of an entry that a file can hold. -/
theorem Entry.IsStored.holds_record {e : Entry} {schema : Schema} (h : e.IsStored schema) :
    (e.record h.isRecordId).Holds schema e := by
  simpa only [h.stored_eq] using Entry.holds_record h.isRecordId h.fits

/-! ## Many records -/

/-- A record of a file and the blanks after it. -/
structure Piece where
  record : Record
  gap : List Char
  blank : ∀ c ∈ gap, Text.isAsciiBlank c = true

namespace Piece

/-- The text of the piece. -/
def chars (p : Piece) : List Char := p.record.chars ++ p.gap

/-- The records of pieces that stand one after the other from a byte position on. -/
def found (pos : Nat) : List Piece → List RawRecord
  | [] => []
  | p :: ps => p.record.found pos :: found (pos + Text.utf8Length p.chars) ps

end Piece

/-- Blanks in front of the records do not matter. -/
theorem records_blank_append {gap : List Char} (hgap : ∀ c ∈ gap, Text.isAsciiBlank c = true)
    (pos : Nat) (cs : List Char) :
    records pos (gap ++ cs) = records (pos + Text.utf8Length gap) cs := by
  induction gap generalizing pos with
  | nil => rfl
  | cons c gap ih =>
    obtain ⟨hc, hgap⟩ := List.forall_mem_cons.1 hgap
    rw [List.cons_append, records, if_pos hc, ih hgap, Text.utf8Length_cons,
      Text.utf8Size_of_isAsciiBlank hc, Nat.add_assoc]

/-- A record at the front of a text is the first one found. -/
theorem records_record_append (r : Record) (pos : Nat) (cs : List Char) :
    records pos (r.chars ++ cs) =
      .ok (r.found pos) :: records (pos + Text.utf8Length r.chars) cs := by
  have hscan : scanRecord pos (r.chars ++ cs) = .ok (r.found pos, cs) :=
    r.scanRecord_chars _ _
  obtain ⟨tail, htail⟩ : ∃ tail, r.chars ++ cs = '{' :: tail :=
    ⟨r.id ++ ';' :: r.body ++ ['}'] ++ cs, by simp [Record.chars]⟩
  have hblank : ¬ Text.isAsciiBlank '{' = true := by decide
  rw [htail] at hscan ⊢
  rw [records, if_neg hblank]
  split
  · next heq =>
    rw [hscan] at heq
    cases heq
  · next heq =>
    rw [hscan] at heq
    cases heq
    rfl

/-- A record is found alone in its own text. -/
theorem Record.recordsFrom_chars (r : Record) :
    recordsFrom (String.ofList r.chars) 0 = [.ok (r.found 0)] := by
  have hrecords := records_record_append r 0 []
  rw [List.append_nil, records.eq_1] at hrecords
  rw [recordsFrom, String.toList_ofList]
  exact hrecords

/-- Pieces that stand one after the other are found one after the other. -/
theorem records_pieces {gap : List Char} (hgap : ∀ c ∈ gap, Text.isAsciiBlank c = true) (pos : Nat)
    (ps : List Piece) :
    records pos (gap ++ ps.flatMap Piece.chars) =
      (Piece.found (pos + Text.utf8Length gap) ps).map .ok := by
  rw [records_blank_append hgap]
  -- the blanks of a piece are those in front of the next one
  induction ps generalizing pos gap with
  | nil => simp [records, Piece.found]
  | cons p ps ih =>
    rw [List.flatMap_cons, Piece.chars, List.append_assoc, records_record_append,
      records_blank_append p.blank, ih p.blank, Piece.found, List.map_cons, Piece.chars,
      Text.utf8Length_append, Nat.add_assoc]

/-- A text is read to its end, or up to a rest in which no record starts. -/
inductive Rest (pos : Nat) : List Char → List Corruption → Prop
  | nothing : Rest pos [] []
  | fault (c : Char) (cs : List Char) (e : Corruption)
      (scan : scanRecord pos (c :: cs) = .error e) : Rest pos (c :: cs) [e]

/-- Every text consists of blanks, pieces and a rest. -/
theorem exists_pieces_append (pos : Nat) (cs : List Char) :
    ∃ (gap : List Char) (ps : List Piece) (rest : List Char) (faults : List Corruption),
      (∀ c ∈ gap, Text.isAsciiBlank c = true) ∧ cs = gap ++ (ps.flatMap Piece.chars ++ rest) ∧
        records pos cs =
          (Piece.found (pos + Text.utf8Length gap) ps).map .ok ++ faults.map .error ∧
        Rest (pos + Text.utf8Length gap + Text.utf8Length (ps.flatMap Piece.chars)) rest
          faults := by
  -- the blanks in front of the rest become the gap of the record before it
  fun_induction records pos cs with
  | case1 pos => exact ⟨[], [], [], [], List.forall_mem_nil _, rfl, rfl, .nothing⟩
  | case2 pos c cs hc ih =>
    obtain ⟨gap, ps, rest, faults, hgap, rfl, hrecords, hrest⟩ := ih
    have hlength : pos + 1 + Text.utf8Length gap = pos + Text.utf8Length (c :: gap) := by
      rw [Text.utf8Length_cons, Text.utf8Size_of_isAsciiBlank hc, Nat.add_assoc]
    rw [hlength] at hrecords hrest
    exact ⟨c :: gap, ps, rest, faults, List.forall_mem_cons.2 ⟨hc, hgap⟩, rfl, hrecords, hrest⟩
  | case3 pos c cs hc e hscan =>
    exact ⟨[], [], c :: cs, [e], List.forall_mem_nil _, rfl, rfl, .fault c cs e hscan⟩
  | case4 pos c cs hc raw tail hscan hlt ih =>
    obtain ⟨r, hr, rfl⟩ := exists_record_of_scanRecord hscan
    obtain ⟨gap, ps, rest, faults, hgap, rfl, hrecords, hrest⟩ := ih
    refine ⟨[], ⟨r, gap, hgap⟩ :: ps, rest, faults, List.forall_mem_nil _, ?_, ?_, ?_⟩
    · rw [hr, List.nil_append, List.flatMap_cons, Piece.chars]
      simp only [List.append_assoc]
    · rw [hrecords]
      simp only [Piece.found, Piece.chars, Record.found, Text.utf8Length_append,
        Text.utf8Length_nil, Nat.add_assoc, Nat.add_zero, List.map_cons, List.cons_append]
    · simpa only [List.flatMap_cons, Piece.chars, Record.found, Text.utf8Length_append,
        Text.utf8Length_nil, Nat.add_assoc, Nat.add_zero] using hrest

theorem exists_record_of_mem_found {pos : Nat} {ps : List Piece} {raw : RawRecord}
    (h : raw ∈ Piece.found pos ps) : ∃ (r : Record) (start : Nat), raw = r.found start := by
  induction ps generalizing pos with
  | nil => cases h
  | cons p ps ih =>
    rcases List.mem_cons.1 h with rfl | h
    · exact ⟨p.record, pos, rfl⟩
    · exact ih h

/-- What is found in a text, from any byte on, is a record. -/
theorem exists_record_of_mem_recordsFrom {text : String} {offset : Nat} {raw : RawRecord}
    (h : .ok raw ∈ recordsFrom text offset) :
    ∃ (r : Record) (start : Nat), raw = r.found start := by
  unfold recordsFrom at h
  split at h
  · next cs _ =>
    obtain ⟨gap, ps, rest, faults, -, -, hrecords, -⟩ := exists_pieces_append offset cs
    rw [hrecords, List.mem_append, List.mem_map, List.mem_map] at h
    rcases h with ⟨raw', hmem, hraw⟩ | ⟨fault, -, hfault⟩
    · cases hraw
      exact exists_record_of_mem_found hmem
    · cases hfault
  · cases List.mem_singleton.1 h

/-- Where only records are found there is no fault. -/
theorem eq_of_map_ok_eq_append {raws raws' : List RawRecord} {faults : List Corruption}
    (h : raws.map Except.ok = raws'.map Except.ok ++ faults.map Except.error) :
    raws = raws' ∧ faults = [] := by
  have hnil : faults = [] := by
    refine List.eq_nil_iff_forall_not_mem.2 fun e he => ?_
    have hmem : Except.error e ∈ raws.map (Except.ok (ε := Corruption)) := by
      rw [h]
      exact List.mem_append_right _ (List.mem_map_of_mem he)
    obtain ⟨raw, -, hraw⟩ := List.mem_map.1 hmem
    cases hraw
  rw [hnil, List.map_nil, List.append_nil] at h
  exact ⟨List.map_injective_iff.2 (fun _ _ => Except.ok.inj) h, hnil⟩

/-- A text in which only records are found consists of pieces. -/
theorem exists_pieces {pos : Nat} {cs : List Char} {raws : List RawRecord}
    (h : records pos cs = raws.map .ok) :
    ∃ (gap : List Char) (ps : List Piece), (∀ c ∈ gap, Text.isAsciiBlank c = true) ∧
      cs = gap ++ ps.flatMap Piece.chars ∧ raws = Piece.found (pos + Text.utf8Length gap) ps := by
  obtain ⟨gap, ps, rest, faults, hgap, rfl, hrecords, hrest⟩ := exists_pieces_append pos cs
  obtain ⟨hraws, rfl⟩ := eq_of_map_ok_eq_append (h.symm.trans hrecords)
  cases hrest
  exact ⟨gap, ps, hgap, by rw [List.append_nil], hraws⟩

end RecordStore

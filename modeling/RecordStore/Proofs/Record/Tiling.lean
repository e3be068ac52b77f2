import RecordStore.Proofs.Record.Walk

/-!
# Records tile a text

What a reader finds in a text, however corrupt, are records one after the other with nothing but
blanks between them, each of them just as it stands in the text, and at most one fault behind them.
So no part of a text that is read without a fault is passed over.

- `offset_of_scanRecord`: where the fault of a record lies;
- `RawRecord.Spans`: a record stands in a text where it was found;
- `Tiles`: records with nothing but blanks between them; `Tiles.pairwise`: they do not overlap;
- `exists_tiles_recordsFrom`: what a reader finds from any byte on;
- `Tiles.covers`: every byte is accounted for.
-/

namespace RecordStore

open Text (At bytes slice?)

/-! ## Faults -/

theorem consScanned_eq_error_iff {α : Type} {c : Char} {x : Except Corruption (List Char × α)}
    {e : Corruption} : consScanned c x = .error e ↔ x = .error e := by
  cases x <;> simp [consScanned, Except.map]

/-- Whether a fault is reported at the start of a record or within the text that was scanned. -/
def Corruption.Within (e : Corruption) (start pos : Nat) (cs : List Char) : Prop :=
  e.offset = start ∨ pos ≤ e.offset ∧ e.offset < pos + Text.utf8Length cs

theorem Corruption.Within.cons {e : Corruption} {start pos size : Nat} {c : Char} {cs : List Char}
    (h : e.Within start (pos + size) cs) (hsize : size = c.utf8Size) :
    e.Within start pos (c :: cs) := by
  refine h.imp id fun h => ?_
  rw [Text.utf8Length_cons]
  omega

theorem Corruption.Within.head {fault : FormatFault} (start pos : Nat) (c : Char)
    (cs : List Char) : Corruption.Within ⟨pos, fault⟩ start pos (c :: cs) := by
  refine .inr ⟨Nat.le_refl _, ?_⟩
  have hsize := c.utf8Size_pos
  rw [Text.utf8Length_cons]
  dsimp only
  omega

theorem within_of_scanId {start pos : Nat} {cs : List Char} {e : Corruption}
    (h : scanId start pos cs = .error e) : e.Within start pos cs := by
  induction cs generalizing pos with
  | nil =>
    cases h
    exact .inl rfl
  | cons c cs ih =>
    rw [scanId] at h
    split at h
    · cases h
    · split at h
      · cases h
        exact .head start pos c cs
      · exact (ih (consScanned_eq_error_iff.1 h)).cons rfl

theorem within_of_scanBody {start pos : Nat} {state : FieldState} {cs : List Char}
    {e : Corruption} (h : scanBody start pos state cs = .error e) : e.Within start pos cs := by
  induction cs generalizing pos state with
  | nil =>
    cases h
    exact .inl rfl
  | cons c cs ih =>
    rw [scanBody] at h
    split at h
    · exact (ih (consScanned_eq_error_iff.1 h)).cons rfl
    · split at h
      · cases h
      · split at h
        · cases h
          exact .head start pos c cs
        · split at h
          · next hcomma =>
            subst hcomma
            exact (ih (consScanned_eq_error_iff.1 h)).cons (by decide)
          · exact (ih (consScanned_eq_error_iff.1 h)).cons rfl

/-- The fault of a record lies where the record starts or behind that, and within the text. -/
theorem offset_of_scanRecord {start : Nat} {c : Char} {cs : List Char} {e : Corruption}
    (h : scanRecord start (c :: cs) = .error e) :
    start ≤ e.offset ∧ e.offset < start + Text.utf8Length (c :: cs) := by
  have hsize := c.utf8Size_pos
  have hstart (heq : e.offset = start) :
      start ≤ e.offset ∧ e.offset < start + Text.utf8Length (c :: cs) := by
    rw [heq, Text.utf8Length_cons]
    omega
  unfold scanRecord at h
  split at h
  · next cs' heq =>
    cases heq
    have hone : ('{').utf8Size = 1 := by decide
    split at h
    · next hid =>
      cases h
      rcases within_of_scanId hid with heq | hlater
      · exact hstart heq
      · rw [Text.utf8Length_cons, hone]
        omega
    · cases h
      exact hstart rfl
    · next id afterId _ hid =>
      split at h
      · next hbody =>
        cases h
        obtain ⟨rfl, -⟩ := scanId_eq_ok_iff.1 hid
        have hsep : (';').utf8Size = 1 := by decide
        rcases within_of_scanBody hbody with heq | hlater
        · exact hstart heq
        · rw [Text.utf8Length_cons, Text.utf8Length_append, Text.utf8Length_cons, hone, hsep]
          omega
      · cases h
  · cases h
    exact hstart rfl

/-! ## Tiles -/

/-- The text of a record that was found. -/
def RawRecord.chars (r : RawRecord) : List Char :=
  '{' :: r.id.toList ++ ';' :: r.body.toList ++ ['}']

/-- A record that was found stands just there in the text, and is found in its own text as well. -/
structure RawRecord.Spans (r : RawRecord) (text : List Char) : Prop where
  isRecordId : IsRecordId r.id
  slice : slice? r.start r.stop text = some r.chars
  alone : recordsFrom (String.ofList r.chars) 0 =
    [.ok { r with start := 0, stop := r.stop - r.start }]

/-- Nothing but blanks stands between two byte positions. -/
def BlankBetween (text : List Char) (start stop : Nat) : Prop :=
  ∃ gap, slice? start stop text = some gap ∧ ∀ c ∈ gap, Text.isAsciiBlank c = true

/-- Records stand one after the other from a byte position on, with nothing but blanks in front of
each of them. The last one ends at the second position. -/
def Tiles (text : List Char) : Nat → List RawRecord → Nat → Prop
  | pos, [], last => pos = last
  | pos, r :: rs, last => BlankBetween text pos r.start ∧ r.Spans text ∧ Tiles text r.stop rs last

theorem Record.spans {text rest : List Char} {pos : Nat} (r : Record)
    (h : At text pos (r.chars ++ rest)) : (r.found pos).Spans text := by
  have hchars : (r.found pos).chars = r.chars := by
    simp only [RawRecord.chars, Record.found, String.toList_ofList, Record.chars]
  refine ⟨r.isRecordId, ?_, ?_⟩
  · rw [hchars]
    exact h.slice?
  · rw [hchars, r.recordsFrom_chars]
    simp only [Record.found, Nat.zero_add, Nat.add_sub_cancel_left]

/-- Pieces are tiles, and blanks stand behind the last one. -/
theorem exists_tiles {text gap rest : List Char} {pos : Nat} {ps : List Piece}
    (hgap : ∀ c ∈ gap, Text.isAsciiBlank c = true)
    (h : At text pos (gap ++ (ps.flatMap Piece.chars ++ rest))) :
    ∃ last trail, Tiles text pos (Piece.found (pos + Text.utf8Length gap) ps) last ∧
      (∀ c ∈ trail, Text.isAsciiBlank c = true) ∧ At text last (trail ++ rest) ∧
      last + Text.utf8Length trail =
        pos + Text.utf8Length gap + Text.utf8Length (ps.flatMap Piece.chars) := by
  induction ps generalizing pos gap with
  | nil => exact ⟨pos, gap, rfl, hgap, h, rfl⟩
  | cons p ps ih =>
    have hrecord : At text (pos + Text.utf8Length gap)
        (p.record.chars ++ (p.gap ++ (ps.flatMap Piece.chars ++ rest))) := by
      have happend := h.append
      rwa [List.flatMap_cons, Piece.chars, List.append_assoc, List.append_assoc] at happend
    obtain ⟨last, trail, htiles, htrail, hat, hlength⟩ := ih p.blank hrecord.append
    refine ⟨last, trail, ⟨⟨gap, h.slice?, hgap⟩, p.record.spans hrecord, ?_⟩, htrail, hat, ?_⟩
    · simpa only [Record.found, Piece.chars, Text.utf8Length_append, Nat.add_assoc] using htiles
    · rw [hlength, List.flatMap_cons, Text.utf8Length_append, Piece.chars, Text.utf8Length_append]
      simp only [Nat.add_assoc]

/-! ## What a reader finds -/

variable {text : List Char} {r : RawRecord} {raws : List RawRecord} {pos last : Nat}

theorem le_of_slice? {start stop : Nat} {part : List Char}
    (h : slice? start stop text = some part) :
    start ≤ stop ∧ stop = start + Text.utf8Length part ∧ stop ≤ Text.utf8Length text := by
  obtain ⟨before, after, rfl, rfl, rfl⟩ := Text.slice?_eq_some_iff.1 h
  simp only [Text.utf8Length_append]
  exact ⟨Nat.le_add_right _ _, trivial, by omega⟩

/-- A record has a first and a last byte. -/
theorem RawRecord.Spans.lt (h : r.Spans text) :
    r.start < r.stop ∧ r.stop ≤ Text.utf8Length text := by
  obtain ⟨-, hstop, hle⟩ := le_of_slice? h.slice
  have hone : ('{').utf8Size = 1 := by decide
  have hlength : Text.utf8Length r.chars = 1 + Text.utf8Length r.chars.tail :=
    congrArg (· + Text.utf8Length r.chars.tail) hone
  omega

/-- The records come one after the other. -/
theorem Tiles.pairwise (h : Tiles text pos raws last) :
    pos ≤ last ∧ (∀ r ∈ raws, pos ≤ r.start ∧ r.start < r.stop ∧ r.stop ≤ Text.utf8Length text) ∧
      raws.Pairwise (fun a b => a.stop ≤ b.start) ∧
      last = (raws.getLast?.map RawRecord.stop).getD pos := by
  induction raws generalizing pos with
  | nil =>
    cases h
    exact ⟨Nat.le_refl _, List.forall_mem_nil _, .nil, rfl⟩
  | cons r raws ih =>
    obtain ⟨⟨gap, hgap, -⟩, hspans, htiles⟩ := h
    obtain ⟨hlast, hwithin, hpairwise, hend⟩ := ih htiles
    have hpos := (le_of_slice? hgap).1
    have hr := hspans.lt
    refine ⟨by omega, ?_, ?_, ?_⟩
    · refine List.forall_mem_cons.2 ⟨⟨hpos, hr⟩, fun r' hr' => ?_⟩
      obtain ⟨hstart, hspan⟩ := hwithin r' hr'
      exact ⟨by omega, hspan⟩
    · exact List.pairwise_cons.2 ⟨fun r' hr' => (hwithin r' hr').1, hpairwise⟩
    · rw [hend, List.getLast?_cons]
      cases raws.getLast? <;> rfl

/-- A text is read in tiles, to its end or up to a fault. -/
theorem exists_tiles_of_at {text : String} {offset : Nat} {cs : List Char}
    (h : At text.toList offset cs) :
    ∃ (raws : List RawRecord) (faults : List Corruption) (last : Nat),
      records offset cs = raws.map .ok ++ faults.map .error ∧
        Tiles text.toList offset raws last ∧ faults.length ≤ 1 ∧
        (∀ e ∈ faults, last ≤ e.offset ∧ e.offset < text.utf8ByteSize) ∧
        (faults = [] → BlankBetween text.toList last text.utf8ByteSize) := by
  obtain ⟨gap, ps, rest, faults, hgap, rfl, hrecords, hrest⟩ := exists_pieces_append offset cs
  obtain ⟨last, trail, htiles, htrail, hat, hlength⟩ := exists_tiles hgap h
  have hsize := hat.add_utf8Length
  rw [Text.length_bytes, Text.utf8Length_toList, Text.utf8Length_append] at hsize
  refine ⟨_, faults, last, hrecords, htiles, ?_⟩
  cases hrest with
  | nothing =>
    refine ⟨Nat.zero_le _, List.forall_mem_nil _, fun _ => ⟨trail, ?_, htrail⟩⟩
    rw [Text.utf8Length_nil, Nat.add_zero] at hsize
    rw [← hsize]
    exact hat.slice?
  | fault c cs e scan =>
    obtain ⟨hstart, hstop⟩ := offset_of_scanRecord scan
    refine ⟨Nat.le_refl _, List.forall_mem_singleton.2 ⟨by omega, by omega⟩, nofun⟩

/-- So is it from any byte on. Within a character there is only a fault. -/
theorem exists_tiles_recordsFrom {text : String} {offset : Nat}
    (h : offset ≤ text.utf8ByteSize) :
    ∃ (raws : List RawRecord) (faults : List Corruption) (last : Nat),
      recordsFrom text offset = raws.map .ok ++ faults.map .error ∧
        Tiles text.toList offset raws last ∧ faults.length ≤ 1 ∧
        (∀ e ∈ faults, last ≤ e.offset ∧ e.offset < text.utf8ByteSize) ∧
        (faults = [] → BlankBetween text.toList last text.utf8ByteSize) := by
  rw [← Text.utf8Length_toList] at h
  unfold recordsFrom
  cases hdrop : dropBytes? offset text.toList with
  | some rest =>
    rcases Text.at_of_dropBytes? hdrop with hat | ⟨rfl, hend⟩
    · exact exists_tiles_of_at hat
    · rw [Text.length_bytes] at hend
      have hat : At text.toList offset [] :=
        ⟨text.toList, (List.append_nil _).symm, Nat.le_antisymm hend h⟩
      exact exists_tiles_of_at hat
  | none =>
    obtain ⟨before, c, after, k, htext, -, hk, rfl⟩ := Text.exists_of_dropBytes?_eq_none hdrop
    refine ⟨[], [⟨_, .expectedRecord⟩], _, rfl, rfl, Nat.le_refl _, ?_, nofun⟩
    refine List.forall_mem_singleton.2 ⟨Nat.le_refl _, ?_⟩
    rw [← Text.utf8Length_toList, htext, Text.utf8Length_append, Text.utf8Length_cons]
    dsimp only
    omega

/-! ## Every byte -/

theorem isBlankByte_of_mem_bytes {gap : List Char} (h : ∀ c ∈ gap, Text.isAsciiBlank c = true)
    {b : UInt8} (hb : b ∈ bytes gap) : Walk.isBlankByte b = true := by
  obtain ⟨c, hc, hbyte⟩ := List.mem_flatMap.1 hb
  have hblank := h c hc
  simp only [Text.isAsciiBlank, Bool.or_eq_true, beq_iff_eq] at hblank
  rcases hblank with (((rfl | rfl) | rfl) | rfl) | rfl <;>
  · cases List.mem_singleton.1 hbyte
    decide

theorem BlankBetween.isBlankByte {start stop i : Nat} {b : UInt8}
    (h : BlankBetween text start stop) (hstart : start ≤ i) (hstop : i < stop)
    (hbyte : (bytes text)[i]? = some b) : Walk.isBlankByte b = true := by
  obtain ⟨gap, hslice, hgap⟩ := h
  obtain ⟨before, after, rfl, rfl, rfl⟩ := Text.slice?_eq_some_iff.1 hslice
  rw [Text.utf8Length_append, ← Text.length_bytes, ← Text.length_bytes] at hstop
  rw [← Text.length_bytes] at hstart
  rw [Text.bytes_append, Text.bytes_append, List.getElem?_append_right hstart,
    List.getElem?_append_left (by omega)] at hbyte
  exact isBlankByte_of_mem_bytes hgap (List.mem_of_getElem? hbyte)

/-- A byte among tiles is a blank or one of a record. -/
theorem Tiles.covers (h : Tiles text pos raws last) {i : Nat} {b : UInt8} (hpos : pos ≤ i)
    (hlast : i < last) (hbyte : (bytes text)[i]? = some b) :
    Walk.isBlankByte b = true ∨ ∃ r ∈ raws, r.start ≤ i ∧ i < r.stop := by
  induction raws generalizing pos with
  | nil =>
    cases h
    omega
  | cons r raws ih =>
    obtain ⟨hblank, -, htiles⟩ := h
    by_cases hstart : i < r.start
    · exact .inl (hblank.isBlankByte hpos hstart hbyte)
    · by_cases hstop : i < r.stop
      · exact .inr ⟨r, List.mem_cons_self, by omega, hstop⟩
      · exact (ih htiles (by omega)).imp_right fun ⟨r', hr', hwithin⟩ =>
          ⟨r', List.mem_cons_of_mem _ hr', hwithin⟩

end RecordStore

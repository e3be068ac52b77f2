import RecordStore.Proofs.Record.Layout

/-!
# Two ways through the body of a record

A body is gone through twice. The scan for the end of the record honours backslashes in fields that
start as a string does, the cut at commas honours them everywhere. They see the same fields wherever
a record is decoded: a field of any other kind is a number, and no number has a backslash in it. So
a record that is decoded can be written anew, and is then the same for both.

- `FieldState.commas`: where the scan starts new fields; `commasBetween`: where fields were cut;
- `FieldState.Honours`: in what is left of a field the scan honours backslashes, or there are none;
- `commas_eq_commasBetween`: if this is so in all fields, both see the same ones;
- `Record.Holds.honours`: it is so in every record that is decoded;
- `decode_normalizes`: a record that is decoded, and the one that is written for its entry.
-/

namespace RecordStore

/-! ## Where fields start -/

/-- The byte positions of the commas at which the scan of a text within a body starts a new
field. -/
def FieldState.commas (state : FieldState) (pos : Nat) : List Char → List Nat
  | [] => []
  | c :: cs =>
    match state.step c with
    | none => []
    | some next =>
      (if next = .atStart then [pos] else []) ++ commas next (pos + c.utf8Size) cs

/-- The byte positions of the commas between fields that stand one after the other. -/
def commasBetween (pos : Nat) : List (List Char) → List Nat
  | [] => []
  | [_] => []
  | field :: fields =>
    (pos + Text.utf8Length field) :: commasBetween (pos + Text.utf8Length field + 1) fields

theorem commasBetween_extendFirst (pos : Nat) (c : Char) {fields : List (List Char)}
    (h : fields ≠ []) :
    commasBetween pos (Text.extendFirst c fields) = commasBetween (pos + c.utf8Size) fields := by
  match fields with
  | [] => exact absurd rfl h
  | [_] => rfl
  | _ :: _ :: _ => simp only [Text.extendFirst, commasBetween, Text.utf8Length_cons, Nat.add_assoc]

theorem splitUnescaped_ne_nil (cs : List Char) : splitUnescaped cs ≠ [] := by
  fun_cases splitUnescaped cs <;> simp

/-- The cut at commas loses nothing. -/
theorem join_splitUnescaped (cs : List Char) : Text.join [','] (splitUnescaped cs) = cs := by
  have hne := splitUnescaped_ne_nil
  fun_induction splitUnescaped cs with
  | case1 => rfl
  | case2 => rfl
  | case3 => rfl
  | case4 d cs ih =>
    rw [Text.join, List.nil_append, ih, List.singleton_append]
    exact hne _
  | case5 c d cs hcomma hescape ih =>
    rw [Text.join_extendFirst _ _ (Text.extendFirst_ne_nil _ _),
      Text.join_extendFirst _ _ (hne _), ih]
  | case6 c d cs hcomma hplain ih => rw [Text.join_extendFirst _ _ (hne _), ih]

theorem join_splitFields (body : List Char) : Text.join [','] (splitFields body) = body := by
  unfold splitFields
  split
  · next hempty =>
    rw [List.isEmpty_iff.1 hempty]
    rfl
  · exact join_splitUnescaped body

/-! ## Fields that both see -/

namespace FieldState

/-- In what is left of a field the scan honours backslashes, or there are none. -/
def Honours (state : FieldState) (field : List Char) : Prop :=
  match state with
  | atStart => field.head? = some 'S' ∨ '\\' ∉ field
  | inside string => string = true ∨ '\\' ∉ field
  | afterBackslash => False

/-- So it is in what is left of a field and in all fields behind it. -/
def HonoursAll (state : FieldState) : List (List Char) → Prop
  | [] => False
  | field :: fields => state.Honours field ∧ ∀ f ∈ fields, atStart.Honours f

variable {state state' : FieldState} {c : Char} {cs field : List Char}

theorem commas_cons (h : state.step c = some state') (pos : Nat) (cs : List Char) :
    state.commas pos (c :: cs) =
      (if state' = atStart then [pos] else []) ++ state'.commas (pos + c.utf8Size) cs := by
  rw [commas, h]

theorem enclosed_tail (henclosed : Enclosed state (c :: cs)) (h : state.step c = some state') :
    Enclosed state' cs := by
  obtain ⟨next, hstep, htail⟩ := enclosed_cons_iff.1 henclosed
  cases h.symm.trans hstep
  exact htail

theorem step_comma (h : state ≠ afterBackslash) : state.step ',' = some atStart := by
  simp [step, h]

/-- Only a comma starts a field. -/
theorem step_eq_some (h : state.step c = some state') (hc : c ≠ ',') :
    state' = state.next c ∧ state' ≠ atStart := by
  have hnext : state' = state.next c := by
    unfold step at h
    split at h
    · exact (Option.some.inj h).symm
    · split at h
      · cases h
      · exact (Option.some.inj h).symm
  refine ⟨hnext, ?_⟩
  rw [hnext]
  fun_cases FieldState.next state c <;> nofun

theorem Honours.ne_afterBackslash (h : state.Honours field) : state ≠ afterBackslash := by
  rintro rfl
  exact h

/-- A character that is no backslash leaves it so. -/
theorem Honours.next (h : state.Honours (c :: field)) (hc : c ≠ '\\') :
    (state.next c).Honours field := by
  cases state with
  | atStart =>
    refine h.imp (fun hhead => ?_) (mt (List.mem_cons_of_mem c))
    cases hhead
    rfl
  | inside string =>
    have hplain : (inside string).next c = inside string := by simp [FieldState.next, hc]
    rw [hplain]
    exact h.imp id (mt (List.mem_cons_of_mem c))
  | afterBackslash => exact h.elim

/-- Where a field goes on with a backslash, the scan is within a string. -/
theorem Honours.eq_inside (h : state.Honours ('\\' :: field)) : state = inside true := by
  cases state with
  | atStart =>
    rcases h with hhead | hnone
    · cases hhead
    · exact absurd List.mem_cons_self hnone
  | inside string =>
    rcases h with rfl | hnone
    · rfl
    · exact absurd List.mem_cons_self hnone
  | afterBackslash => exact h.elim

/-- A character that is not escapable is passed over as if there were no backslash before it. -/
theorem step_afterBackslash (h : isEscapable c = false) :
    afterBackslash.step c = (inside true).step c := by
  rw [isEscapable_eq_false_iff] at h
  simp [step, FieldState.next, h]

end FieldState

open FieldState in
/-- If the scan honours backslashes in every field that has any, it starts new fields at the commas
at which the body is cut. -/
theorem commas_eq_commasBetween {state : FieldState} {cs : List Char}
    (h : state.HonoursAll (splitUnescaped cs)) (henclosed : Enclosed state cs) (pos : Nat) :
    state.commas pos cs = commasBetween pos (splitUnescaped cs) := by
  have hne := splitUnescaped_ne_nil
  -- the cut looks ahead by one character, where the scan remembers a backslash
  fun_induction splitUnescaped cs generalizing state pos with
  | case1 => rfl
  | case2 =>
    rw [commas_cons (step_comma h.1.ne_afterBackslash)]
    rfl
  | case3 c hcomma =>
    obtain ⟨state', hstep, -⟩ := enclosed_cons_iff.1 henclosed
    rw [commas_cons hstep, if_neg (step_eq_some hstep hcomma).2]
    rfl
  | case4 d cs ih =>
    have hstep := step_comma h.1.ne_afterBackslash
    obtain ⟨field, fields, hparts⟩ := List.exists_cons_of_ne_nil (hne (d :: cs))
    rw [hparts] at h ih ⊢
    have hhonours : atStart.HonoursAll (field :: fields) := List.forall_mem_cons.1 h.2
    have hrest := ih hhonours (enclosed_tail henclosed hstep)
    rw [commas_cons hstep, if_pos rfl, hrest]
    rfl
  | case5 c d cs hcomma hescape ih =>
    simp only [Bool.and_eq_true, decide_eq_true_eq] at hescape
    obtain ⟨rfl, -⟩ := hescape
    rw [commasBetween_extendFirst _ _ (Text.extendFirst_ne_nil _ _),
      commasBetween_extendFirst _ _ (hne cs)]
    obtain ⟨field, fields, hparts⟩ := List.exists_cons_of_ne_nil (hne cs)
    rw [hparts] at h ih ⊢
    cases h.1.eq_inside
    -- the backslash and the character behind it leave the scan where it was
    have hfirst : (inside true).step '\\' = some afterBackslash := by decide
    have hsecond : afterBackslash.step d = some (inside true) := rfl
    have hhonours : (inside true).HonoursAll (field :: fields) := ⟨.inl rfl, h.2⟩
    have hrest := ih hhonours (enclosed_tail (enclosed_tail henclosed hfirst) hsecond)
    rw [commas_cons hfirst, commas_cons hsecond, hrest]
    rfl
  | case6 c d cs hcomma hplain ih =>
    obtain ⟨state', hstep, henclosed'⟩ := enclosed_cons_iff.1 henclosed
    obtain ⟨rfl, hstart⟩ := step_eq_some hstep hcomma
    rw [commasBetween_extendFirst _ _ (hne (d :: cs)), commas_cons hstep, if_neg hstart,
      List.nil_append]
    obtain ⟨field, fields, hparts⟩ := List.exists_cons_of_ne_nil (hne (d :: cs))
    rw [hparts] at h ih ⊢
    by_cases hc : c = '\\'
    · subst hc
      cases h.1.eq_inside
      -- what stands behind this backslash is passed over as it would be without it
      have hsame : afterBackslash.step d = (inside true).step d :=
        step_afterBackslash (by simpa using hplain)
      have henclosed'' : Enclosed (inside true) (d :: cs) := by
        rw [enclosed_cons_iff, ← hsame, ← enclosed_cons_iff]
        exact henclosed'
      have hhonours : (inside true).HonoursAll (field :: fields) := ⟨.inl rfl, h.2⟩
      rw [← ih hhonours henclosed'']
      show afterBackslash.commas _ _ = _
      rw [commas, hsame, commas]
    · exact ih ⟨h.1.next hc, h.2⟩ henclosed' _

/-- In a number the scan passes over the backslash and starts a field behind it, the cut does not.
Such a field is never decoded. -/
example : FieldState.atStart.commas 0 "I:1\\,I:2".toList = [4] ∧
    commasBetween 0 (splitFields "I:1\\,I:2".toList) = [] := by decide

/-! ## Records that are decoded -/

/-- A field that has a value is a string, or has no backslash in it. -/
theorem honours_of_decode? {type : StorageType} {field : List Char} {v : Value}
    (h : Value.decode? type field = some v) : FieldState.atStart.Honours field := by
  unfold Value.decode? at h
  split at h
  · next content =>
    split at h
    · next htag =>
      subst htag
      have hnumber (htag : '\\' ≠ type.tag) (hcontent : '\\' ∉ content) :
          FieldState.atStart.Honours (type.tag :: ':' :: content) := by
        refine .inr (List.not_mem_cons_of_ne_of_not_mem htag ?_)
        exact List.not_mem_cons_of_ne_of_not_mem (by decide) hcontent
      cases type with
      | integer =>
        obtain ⟨n, hn, -⟩ := Option.map_eq_some_iff.1 h
        obtain ⟨m, hm, -⟩ := Option.bind_eq_some_iff.1 hn
        exact hnumber (by decide) (Numeral.backslash_notMem_of_readInt? hm)
      | decimal =>
        obtain ⟨x, hx, -⟩ := Option.map_eq_some_iff.1 h
        exact hnumber (by decide) (Numeral.backslash_notMem_of_readDecimal? hx)
      | string => exact .inl rfl
    · cases h
  · cases h

namespace Record

variable {r : Record} {schema : Schema} {e : Entry}

theorem Holds.honours (h : r.Holds schema e) :
    ∀ field ∈ splitFields r.body, FieldState.atStart.Honours field := by
  obtain ⟨hlength, hdata, -, -⟩ := RawRecord.decode_eq_ok_iff.1 h
  rw [Record.found, String.toList_ofList] at hlength hdata
  intro field hfield
  -- each field stands beside its column
  rw [← List.map_fst_zip hlength.le] at hfield
  obtain ⟨⟨field, column⟩, hmem, rfl⟩ := List.mem_map.1 hfield
  obtain ⟨p, -, hp⟩ := exists_of_mem_of_mapM hdata hmem
  dsimp only at hp ⊢
  unfold decodeField at hp
  split at hp
  · next v hv => exact honours_of_decode? hv
  · cases hp

/-- The scan of a record that holds an entry starts new fields at the commas at which its body is
cut. -/
theorem Holds.commas_eq (h : r.Holds schema e) (pos : Nat) :
    FieldState.atStart.commas pos r.body = commasBetween pos (splitFields r.body) := by
  have hhonours := h.honours
  unfold splitFields at hhonours ⊢
  split
  · next hempty =>
    rw [List.isEmpty_iff.1 hempty]
    rfl
  · next hempty =>
    rw [if_neg hempty] at hhonours
    refine commas_eq_commasBetween ?_ r.enclosed pos
    obtain ⟨field, fields, hparts⟩ := List.exists_cons_of_ne_nil (splitUnescaped_ne_nil r.body)
    rw [hparts] at hhonours ⊢
    exact List.forall_mem_cons.1 hhonours

end Record

/-- The record of an entry that a file can hold is found alone in its own text, from the first byte
of it to the last, and holds the entry. -/
theorem Entry.IsStored.recordsFrom_encode {schema : Schema} {e : Entry} (h : e.IsStored schema) :
    ∃ raw : RawRecord, recordsFrom e.encode 0 = [.ok raw] ∧ raw.start = 0 ∧
      raw.stop = e.encode.utf8ByteSize ∧ raw.id = e.id ∧ raw.decode schema = .ok e := by
  refine ⟨_, (e.record h.isRecordId).recordsFrom_chars, rfl, ?_, String.ofList_toList,
    Record.decode_found_eq_ok_iff.2 h.holds_record⟩
  rw [Entry.encode, ← Text.utf8Length_toList, String.toList_ofList, Record.found, Nat.zero_add]
  rfl

/-- A record that is found in a text and decoded was cut at the very commas at which the scan for
its end started new fields, and the fields between them are all of its body. The record that is
written for its entry is found alone in its own text, from the first byte of it to the last, has the
same id, and is decoded to just this entry, for which the same is written again. -/
theorem decode_normalizes {text : String} {offset : Nat} {raw : RawRecord} {schema : Schema}
    {e : Entry} (hfound : .ok raw ∈ recordsFrom text offset) (hdecode : raw.decode schema = .ok e) :
    (∀ pos, commasBetween pos (splitFields raw.body.toList) =
        FieldState.atStart.commas pos raw.body.toList) ∧
      Text.join [','] (splitFields raw.body.toList) = raw.body.toList ∧
      ∃ again : RawRecord, recordsFrom e.encode 0 = [.ok again] ∧ again.start = 0 ∧
        again.stop = e.encode.utf8ByteSize ∧ again.id = raw.id ∧ again.decode schema = .ok e ∧
        (again.decode schema).map Entry.encode = .ok e.encode := by
  obtain ⟨r, start, rfl⟩ := exists_record_of_mem_recordsFrom hfound
  have hholds := Record.decode_found_eq_ok_iff.1 hdecode
  have hid : (r.found start).id = e.id := (RawRecord.decode_eq_ok_iff.1 hdecode).2.2.1
  have hbody : (r.found start).body.toList = r.body := String.toList_ofList
  obtain ⟨again, hagain, hstart, hstop, hsame, hentry⟩ := hholds.isStored.recordsFrom_encode
  refine ⟨fun pos => ?_, join_splitFields _, again, hagain, hstart, hstop, hsame.trans hid.symm,
    hentry, by rw [hentry]; rfl⟩
  rw [hbody]
  exact (hholds.commas_eq pos).symm

/-- A record that was not written by a store, with a lone backslash, an escaped comma and a plus
sign. -/
theorem decode_normalizes_lone_backslash :
    ∃ (raw : RawRecord) (e : Entry),
      .ok raw ∈ recordsFrom "\n\x7ba;S:C:\\d\\,,I:+5\x7d" 0 ∧
      raw.decode ⟨[⟨"A", .string⟩, ⟨"B", .integer⟩]⟩ = .ok e ∧
      e.encode = "\x7ba;S:C:\\\\d\\,,I:5\x7d" ∧
      FieldState.atStart.commas 4 raw.body.toList = [12] ∧
      commasBetween 4 (splitFields raw.body.toList) = [12] ∧
      ∃ again : RawRecord, recordsFrom e.encode 0 = [.ok again] ∧
        again.decode ⟨[⟨"A", .string⟩, ⟨"B", .integer⟩]⟩ = .ok e := by
  have hfound : recordsFrom "\n\x7ba;S:C:\\d\\,,I:+5\x7d" 0 =
      [.ok ⟨1, 18, "a", "S:C:\\d\\,,I:+5"⟩] := by cbv
  have hdecode : RawRecord.decode ⟨1, 18, "a", "S:C:\\d\\,,I:+5"⟩
      ⟨[⟨"A", .string⟩, ⟨"B", .integer⟩]⟩ =
        .ok { id := "a", data := [("A", .str "C:\\d,"), ("B", .int 5)] } := by cbv
  have hmem := hfound ▸ List.mem_singleton_self _
  obtain ⟨hcommas, -, again, hagain, -, -, -, hentry, -⟩ := decode_normalizes hmem hdecode
  have hcut : FieldState.atStart.commas 4 "S:C:\\d\\,,I:+5".toList = [12] := by decide
  exact ⟨_, _, hmem, hdecode, by decide, hcut, (hcommas 4).trans hcut, again, hagain, hentry⟩

end RecordStore

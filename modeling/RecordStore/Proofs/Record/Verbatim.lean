import RecordStore.Proofs.Record.RoundTrip

/-!
# Records without escapes

Older files hold strings as they are, with no backslash before any character. They stay readable as
long as their strings are free of braces and commas, since a backslash stands for itself before
every character that needs none. What remains to be excluded is a backslash at the end of a string,
where a comma or a brace comes next, and two backslashes in a row.

- `IsVerbatim`: the strings that can be written as they are;
- `Literally`: such a text as the readers see it, one backslash at a time, and what each of the
  three readers makes of it (`Literally.run`, `Literally.unsplit`, `Literally.unescape`);
- `Entry.verbatimChars`: the record of an entry without escapes;
- `recordsFrom_verbatim`: the main result.
-/

namespace RecordStore

/-! ## Backslashes that stand for themselves -/

/-- A text that can be written as it is: without braces and commas, with no backslash at its end,
and with no two backslashes in a row. -/
structure IsVerbatim (cs : List Char) : Prop where
  plain : ∀ c ∈ cs, c ≠ '{' ∧ c ≠ '}' ∧ c ≠ ','
  stop : cs.getLast? ≠ some '\\'
  lone : ¬ ['\\', '\\'] <:+: cs

instance (cs : List Char) : Decidable (IsVerbatim cs) :=
  decidable_of_iff (cs.all (fun c => c != '{' && c != '}' && c != ',') = true ∧
      cs.getLast? ≠ some '\\' ∧ ¬ ['\\', '\\'] <:+: cs) <| by
    simp only [List.all_eq_true, Bool.and_eq_true, bne_iff_ne, and_assoc]
    exact ⟨fun ⟨hplain, hstop, hlone⟩ => ⟨hplain, hstop, hlone⟩, fun h => ⟨h.1, h.2, h.3⟩⟩

/-- A text in which every backslash has a character after it that needs none, and every other
character needs none either. -/
inductive Literally : List Char → Prop where
  | nil : Literally []
  | plain {c : Char} {cs : List Char} (hc : isEscapable c = false) (h : Literally cs) :
    Literally (c :: cs)
  | backslash {c : Char} {cs : List Char} (hc : isEscapable c = false) (h : Literally cs) :
    Literally ('\\' :: c :: cs)

theorem IsVerbatim.tail {c : Char} {cs : List Char} (h : IsVerbatim (c :: cs)) :
    IsVerbatim cs where
  plain := (List.forall_mem_cons.1 h.plain).2
  stop := by
    cases cs with
    | nil => simp
    | cons d cs => exact h.stop
  lone := fun hcs => h.lone (hcs.trans (List.suffix_cons c cs).isInfix)

theorem IsVerbatim.isEscapable {c : Char} {cs : List Char} (h : IsVerbatim (c :: cs))
    (hc : c ≠ '\\') : isEscapable c = false :=
  isEscapable_eq_false_iff.2 ⟨hc, h.plain c List.mem_cons_self⟩

theorem IsVerbatim.literally : ∀ {cs : List Char}, IsVerbatim cs → Literally cs
  | [], _ => .nil
  | [c], h => by
    have hc : c ≠ '\\' := by
      rintro rfl
      exact h.stop rfl
    exact .plain (h.isEscapable hc) .nil
  | c :: d :: cs, h => by
    by_cases hc : c = '\\'
    -- the character after the backslash is none itself
    · subst hc
      have hd : d ≠ '\\' := by
        rintro rfl
        exact h.lone ⟨[], cs, rfl⟩
      exact .backslash (h.tail.isEscapable hd) h.tail.tail.literally
    · exact .plain (h.isEscapable hc) h.tail.literally

namespace Literally

variable {cs : List Char}

/-- The scan for the end of the record comes through. -/
theorem run (h : Literally cs) : (FieldState.inside true).run cs = some (.inside true) := by
  induction h with
  | nil => rfl
  | plain hc _ ih =>
    obtain ⟨hback, hopen, hclose, hcomma⟩ := isEscapable_eq_false_iff.1 hc
    simp [FieldState.step, FieldState.next, hback, hopen, hclose, hcomma, ih]
  -- the character after the backslash is passed over as if it were escaped
  | backslash hc _ ih => simp [FieldState.step, FieldState.next, ih]

/-- The cut at commas leaves the text in one piece. -/
theorem unsplit (h : Literally cs) : Unsplit cs := by
  induction h with
  | nil => exact unsplit_nil
  | plain hc _ ih =>
    obtain ⟨hback, -, -, hcomma⟩ := isEscapable_eq_false_iff.1 hc
    exact (unsplit_singleton ⟨hcomma, hback⟩).append ih
  | @backslash c cs hc _ ih =>
    obtain ⟨hback, -, -, hcomma⟩ := isEscapable_eq_false_iff.1 hc
    intro rest
    have hcut : splitUnescaped ('\\' :: c :: (cs ++ rest)) =
        Text.extendFirst '\\' (splitUnescaped (c :: (cs ++ rest))) := by
      simp [splitUnescaped, hc]
    have hc' := unsplit_singleton ⟨hcomma, hback⟩ (cs ++ rest)
    rw [List.singleton_append] at hc'
    rw [List.cons_append, List.cons_append, hcut, hc', ih]
    rfl

/-- The text stands for itself. -/
theorem unescape (h : Literally cs) : unescape cs = cs := by
  induction h with
  | nil => rfl
  | plain hc _ ih => rw [unescape_cons (isEscapable_eq_false_iff.1 hc).1, ih]
  | backslash hc _ ih =>
    rw [RecordStore.unescape, if_neg (by simp [hc]),
      unescape_cons (isEscapable_eq_false_iff.1 hc).1, ih]

end Literally

/-! ## Values and entries without escapes -/

/-- A value as a field of a record, without escapes. -/
def Value.verbatim : Value → List Char
  | str s => StorageType.string.tag :: ':' :: s.toList
  | v => v.encode

/-- Whether a value can be written without escapes, of which only strings have any. -/
def Value.IsVerbatim : Value → Prop
  | str s => RecordStore.IsVerbatim s.toList
  | _ => True

instance : DecidablePred Value.IsVerbatim
  | .str s => inferInstanceAs (Decidable (IsVerbatim s.toList))
  | .int _ | .dec _ => inferInstanceAs (Decidable True)

/-- The record of an entry without escapes. -/
def Entry.verbatimChars (e : Entry) : List Char :=
  '{' :: e.id.toList ++ ';' :: Text.join [','] (e.values.map Value.verbatim) ++ ['}']

/-- A value that can be written without escapes is read back. -/
theorem Value.IsVerbatim.isReadFrom {v : Value} (h : v.IsVerbatim) :
    v.IsReadFrom Value.verbatim := by
  cases v with
  | int n => exact ⟨isField_encode (.int n), decode?_encode (.int n)⟩
  | dec x => exact ⟨isField_encode (.dec x), decode?_encode (.dec x)⟩
  | str s =>
    have hs := IsVerbatim.literally h
    refine ⟨⟨List.cons_ne_nil _ _, ⟨true, hs.run⟩, ?_⟩, ?_⟩
    · have htag : Unsplit ['S'] := unsplit_singleton (by decide)
      have hcolon : Unsplit [':'] := unsplit_singleton (by decide)
      exact htag.append (hcolon.append hs.unsplit)
    · show some (Value.str (String.ofList (unescape s.toList))) = _
      rw [hs.unescape, String.ofList_toList]

/-- An entry of a table with this schema that can be stored without escapes. -/
structure Entry.IsVerbatim (schema : Schema) (e : Entry) : Prop where
  isRecordId : IsRecordId e.id
  fits : e.Fits schema
  verbatim : ∀ v ∈ e.values, v.IsVerbatim

namespace Entry.IsVerbatim

variable {schema : Schema} {e : Entry}

/-- The record of an entry without escapes. -/
def record (h : e.IsVerbatim schema) : Record where
  id := e.id.toList
  body := Text.join [','] (e.values.map Value.verbatim)
  id_ne_nil := h.isRecordId.1
  id_plain := h.isRecordId.2
  enclosed := enclosed_join (List.forall_mem_map.2 fun v hv => (h.verbatim v hv).isReadFrom.1)

theorem chars_record (h : e.IsVerbatim schema) : h.record.chars = e.verbatimChars := rfl

theorem holds_record (h : e.IsVerbatim schema) : h.record.Holds schema e.stored :=
  Record.holds_of_join rfl rfl (fun v hv => (h.verbatim v hv).isReadFrom) h.fits

end Entry.IsVerbatim

/-! ## Files without escapes -/

theorem Piece.blank_nil : ∀ c ∈ ([] : List Char), Text.isAsciiBlank c = true :=
  List.forall_mem_nil _

/-- The piece of a file that an entry becomes. -/
def Piece.ofVerbatim {schema : Schema} (e : { e : Entry // e.IsVerbatim schema }) : Piece where
  record := e.2.record
  gap := []
  blank := Piece.blank_nil

theorem flatMap_ofVerbatim {schema : Schema} (entries : List { e : Entry // e.IsVerbatim schema }) :
    (entries.map Piece.ofVerbatim).flatMap Piece.chars =
      (entries.map Subtype.val).flatMap Entry.verbatimChars := by
  rw [List.flatMap_map, List.flatMap_map]
  refine List.flatMap_congr fun e _ => ?_
  exact List.append_nil _

/-- Records without escapes are found one after the other, wherever they stand in a file: each of
them takes exactly the bytes that were written for its entry, and holds the entry. -/
theorem recordsFrom_verbatim {schema : Schema} {entries : List Entry}
    (h : ∀ e ∈ entries, e.IsVerbatim schema) (before : String) :
    ∃ raws : List RawRecord,
      recordsFrom (before ++ String.ofList (entries.flatMap Entry.verbatimChars))
          before.utf8ByteSize = raws.map .ok ∧
        raws.length = entries.length ∧
        ∀ (i : Nat) (hraw : i < raws.length) (hentry : i < entries.length),
          raws[i].start = before.utf8ByteSize +
              Text.utf8Length ((entries.take i).flatMap Entry.verbatimChars) ∧
            raws[i].stop = raws[i].start + Text.utf8Length entries[i].verbatimChars ∧
            raws[i].decode schema = .ok entries[i].stored := by
  -- the entries carry their proofs, since each has to become a piece
  lift entries to List { e : Entry // e.IsVerbatim schema } using h
  obtain ⟨raws, hraws, hcount, hfound⟩ :=
    recordsFrom_pieces before.toList (List.forall_mem_nil _) (entries.map Piece.ofVerbatim)
  rw [Text.utf8Length_toList, List.nil_append, flatMap_ofVerbatim, String.ofList_append,
    String.ofList_toList] at hraws
  refine ⟨raws, hraws, ?_, ?_⟩
  · rw [hcount, List.length_map, List.length_map]
  · intro i hraw hentry
    have hi : i < entries.length := by simpa using hentry
    have hchars : entries[i].1.verbatimChars = (Piece.ofVerbatim entries[i]).record.chars := rfl
    rw [hfound i hraw (by simpa using hi)]
    simp only [List.getElem_map, Record.found]
    refine ⟨?_, ?_, ?_⟩
    · rw [← List.map_take, flatMap_ofVerbatim, List.map_take, List.nil_append,
        Text.utf8Length_append, Text.utf8Length_toList]
    · rw [hchars]
    · exact Record.decode_found_eq_ok_iff.2 entries[i].2.holds_record

/-- Two paths, the second of which has a character of more bytes after its backslash. -/
theorem recordsFrom_verbatim_paths :
    ∃ a b, recordsFrom "\x7ba1;S:C:\\dir\\file.txt\x7d\x7bb2;S:\\ü\x7d" 0 = [.ok a, .ok b] ∧
      a.decode ⟨[⟨"Path", .string⟩]⟩ =
        .ok { id := "a1", data := [("Path", .str "C:\\dir\\file.txt")] } ∧
      b.decode ⟨[⟨"Path", .string⟩]⟩ = .ok { id := "b2", data := [("Path", .str "\\ü")] } := by
  have h : ∀ e ∈ [({ id := "a1", data := [("Path", .str "C:\\dir\\file.txt")] } : Entry),
      { id := "b2", data := [("Path", .str "\\ü")] }],
      e.IsVerbatim ⟨[⟨"Path", .string⟩]⟩ := by
    refine List.forall_mem_cons.2 ⟨?_, List.forall_mem_singleton.2 ?_⟩
    · exact ⟨by decide, by decide, by decide⟩
    · exact ⟨by decide, by decide, by decide⟩
  obtain ⟨raws, hraws, hcount, hfound⟩ := recordsFrom_verbatim h ""
  obtain ⟨a, b, rfl⟩ := List.length_eq_two.1 hcount
  obtain ⟨-, -, ha⟩ := hfound 0 Nat.zero_lt_two Nat.zero_lt_two
  obtain ⟨-, -, hb⟩ := hfound 1 Nat.one_lt_two Nat.one_lt_two
  exact ⟨a, b, hraws, ha, hb⟩

end RecordStore

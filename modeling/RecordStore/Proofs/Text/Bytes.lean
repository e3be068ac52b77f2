import RecordStore.Record.Reader
import RecordStore.Text.Splice

/-!
# Byte offsets into a text

Files are addressed by bytes and texts are lists of characters. A text that is put together from
parts is cut again at the byte where a part starts.

- `utf8Length_toList`: the bytes of a text are counted as a string counts them;
- `splitBytes_append`, `dropBytes?_append`: cutting after the bytes of the first part;
- `fromUTF8?_toUTF8`, `toUTF8_of_fromUTF8?`: a text is read from just its own bytes.
-/

namespace RecordStore.Text

theorem utf8Length_toList (s : String) : utf8Length s.toList = s.utf8ByteSize := by
  have h : ∀ cs : List Char, utf8Length cs = (String.ofList cs).utf8ByteSize := fun cs => by
    induction cs with
    | nil => simp
    | cons c cs ih =>
      rw [utf8Length_cons, ih, String.ofList_cons]
      simp
  rw [h, String.ofList_toList]

/-- Blanks between records are one byte each. -/
theorem utf8Size_of_isAsciiBlank {c : Char} (h : isAsciiBlank c = true) : c.utf8Size = 1 := by
  simp only [isAsciiBlank, Bool.or_eq_true, beq_iff_eq] at h
  rcases h with (((rfl | rfl) | rfl) | rfl) | rfl <;> decide

theorem splitBytes_append (a b : List Char) : splitBytes (utf8Length a) (a ++ b) = (a, b) := by
  induction a with
  | nil => simp [splitBytes]
  | cons c a ih =>
    obtain ⟨n, hn⟩ : ∃ n, c.utf8Size + utf8Length a = n + 1 :=
      ⟨c.utf8Size + utf8Length a - 1, by have := c.utf8Size_pos; omega⟩
    have hrest : n + 1 - c.utf8Size = utf8Length a := by omega
    rw [utf8Length_cons, hn, List.cons_append, splitBytes, hrest, ih]

theorem fromUTF8?_toUTF8 (s : String) : String.fromUTF8? s.toUTF8 = some s := by
  have hvalid : s.toUTF8.IsValidUTF8 := by
    rw [String.toUTF8_eq_toByteArray]
    exact s.isValidUTF8
  rw [String.fromUTF8?, dif_pos hvalid]
  rfl

theorem toUTF8_of_fromUTF8? {content : ByteArray} {text : String}
    (h : String.fromUTF8? content = some text) : text.toUTF8 = content := by
  unfold String.fromUTF8? at h
  split at h
  · cases h
    rfl
  · cases h

end RecordStore.Text

namespace RecordStore

theorem dropBytes?_append (a b : List Char) : dropBytes? (Text.utf8Length a) (a ++ b) = some b := by
  induction a with
  | nil => simp [dropBytes?]
  | cons c a ih =>
    obtain ⟨n, hn⟩ : ∃ n, c.utf8Size + Text.utf8Length a = n + 1 :=
      ⟨c.utf8Size + Text.utf8Length a - 1, by have := c.utf8Size_pos; omega⟩
    have hrest : n + 1 - c.utf8Size = Text.utf8Length a := by omega
    rw [Text.utf8Length_cons, hn, List.cons_append, dropBytes?, if_pos (by omega), hrest, ih]

end RecordStore

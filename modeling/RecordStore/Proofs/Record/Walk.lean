import RecordStore.Proofs.Record.Layout
import RecordStore.Proofs.Text.Positions

/-!
# Finding records byte by byte

The records of a file can be found in one walk over its bytes, which looks at one byte at a time, at
the next one after a backslash, and cuts the id and the body of a record out of the text where it
has found delimiters. That walk is the scan of the text by characters: no byte that it reads is
behind the end, no cut is within a character, and it ends, whatever the text is and wherever in it
the walk is started.

- `Checked`: what a walk comes to; `Walk.idEnd`, `Walk.bodyEnd`, `Walk.scan`: one record;
- `Walk.next`: the next item of a reader; `Walk.read`: all of them;
- `idEnd_eq`, `bodyEnd_eq`, `scan_eq`: the walk through a record;
- `read_eq_recordsFrom`: a reader that is started at any byte.
-/

namespace RecordStore

/-- What a walk over byte positions comes to, a result or an error. It comes to nothing if it reads
a byte that is not there, or cuts a text within a character or at no position of it. -/
abbrev Checked (ε : Type) := ExceptT ε Option

namespace Checked

variable {ε α β : Type}

/-- A walk that has come to this. -/
def result (r : Except ε α) : Checked ε α := ExceptT.mk (some r)

/-- A byte that is read, or a cut that is made. -/
def access (x : Option α) : Checked ε α := ExceptT.lift x

theorem pure_eq (a : α) : (pure a : Checked ε α) = result (.ok a) := rfl

theorem throw_eq (e : ε) : (throw e : Checked ε α) = result (.error e) := rfl

theorem access_some_bind (a : α) (f : α → Checked ε β) : (access (some a) >>= f) = f a := rfl

theorem result_ok_bind (a : α) (f : α → Checked ε β) : (result (.ok a) >>= f) = f a := rfl

end Checked

namespace Walk

open Text (bytes At slice?)

/-! ## The walk -/

/-- Whether a byte is an ASCII blank. -/
def isBlankByte (b : UInt8) : Bool :=
  b = ' '.toUInt8 || b = '\t'.toUInt8 || b = '\n'.toUInt8 || b = '\x0c'.toUInt8 ||
    b = '\r'.toUInt8

/-- Whether a backslash goes before a byte. -/
def isEscapableByte (b : UInt8) : Bool :=
  b = '\\'.toUInt8 || b = '{'.toUInt8 || b = '}'.toUInt8 || b = ','.toUInt8

/-- The first byte that is no blank. -/
def skipBlanks (bs : List UInt8) (i : Nat) : Option Nat := do
  if i < bs.length then
    let b ← bs[i]?
    if isBlankByte b then skipBlanks bs (i + 1) else return i
  else return i
termination_by bs.length - i

/-- Where the id ends that starts at a byte: at a `;` or at the end of the text. -/
def idEnd (bs : List UInt8) (i : Nat) : Checked Corruption Nat := do
  if i < bs.length then
    let b ← Checked.access bs[i]?
    if b = ';'.toUInt8 then return i
    else if b = '{'.toUInt8 || b = '}'.toUInt8 || b = ','.toUInt8 then throw ⟨i, .malformedId⟩
    else idEnd bs (i + 1)
  else return i
termination_by bs.length - i

/-- Where the body ends that starts at a byte. It is known whether a field starts there, and else
whether the walk is within a string, where an escaped byte is passed over with its backslash. -/
def bodyEnd (bs : List UInt8) (start i : Nat) (fieldStart inString : Bool) :
    Checked Corruption Nat := do
  if i < bs.length then
    let b ← Checked.access bs[i]?
    let inString := if fieldStart then decide (b = 'S'.toUInt8) else inString
    if b = '\\'.toUInt8 && inString && bs[i + 1]?.any isEscapableByte then
      bodyEnd bs start (i + 2) false inString
    else if b = ','.toUInt8 then bodyEnd bs start (i + 1) true inString
    else if b = '}'.toUInt8 then return i
    else if b = '{'.toUInt8 then throw ⟨i, .unexpectedBrace⟩
    else bodyEnd bs start (i + 1) false inString
  else throw ⟨start, .unterminatedRecord⟩
termination_by bs.length - i

/-- The record that starts at a byte. -/
def scan (text : List Char) (start : Nat) : Checked Corruption RawRecord := do
  let b ← Checked.access (bytes text)[start]?
  if b ≠ '{'.toUInt8 then throw ⟨start, .expectedRecord⟩
  let idEnd ← idEnd (bytes text) (start + 1)
  if (bytes text).length ≤ idEnd || idEnd = start + 1 then throw ⟨start, .missingId⟩
  let bodyEnd ← bodyEnd (bytes text) start (idEnd + 1) true false
  let id ← Checked.access (slice? (start + 1) idEnd text)
  let body ← Checked.access (slice? (idEnd + 1) bodyEnd text)
  return { start, stop := bodyEnd + 1, id := String.ofList id, body := String.ofList body }

/-- The next record or fault of a reader that stands at a byte, and where it stands afterwards:
behind the record, or at the end of the text after a fault. -/
def next (text : List Char) (pos : Nat) : Option (Option (Except Corruption RawRecord) × Nat) := do
  let pos ← skipBlanks (bytes text) pos
  if (bytes text).length ≤ pos then return (none, pos)
  match ← (scan text pos).run with
  | .ok r => return (some (.ok r), r.stop)
  | .error e => return (some (.error e), (bytes text).length)

/-- All that a reader finds which stands at a byte and comes to its end in so many steps. -/
def readWithin (text : List Char) : Nat → Nat → Option (List (Except Corruption RawRecord))
  | 0, _ => none
  | steps + 1, pos => do
    match ← next text pos with
    | (none, _) => return []
    | (some item, pos) =>
      let items ← readWithin text steps pos
      return item :: items

/-- All that a reader finds which is started at a byte. There is time for one item for each byte of
the text. -/
def read (text : List Char) (pos : Nat) : Option (List (Except Corruption RawRecord)) :=
  readWithin text ((bytes text).length + 1) pos

/-! ## One record -/

variable {text cs : List Char} {i : Nat} {c : Char}

theorem idEnd_pass {bs : List UInt8} {b : UInt8} (hbyte : bs[i]? = some b)
    (hb : 128 ≤ b.toNat) : idEnd bs i = idEnd bs (i + 1) := by
  have hlt : i < bs.length := (List.getElem?_eq_some_iff.1 hbyte).1
  have hne (d : Char) (hd : d.toNat < 128) : b ≠ d.toUInt8 := Text.ne_toUInt8 hb hd
  rw [idEnd, if_pos hlt, hbyte, Checked.access_some_bind]
  simp only [hne ';' (by decide), hne '{' (by decide), hne '}' (by decide), hne ',' (by decide),
    decide_false, Bool.or_false, Bool.false_eq_true, if_false]

/-- The walk finds the end of an id where the scan does, or the end of the text where the scan
misses the end of the id. -/
theorem idEnd_eq (h : At text i cs) (start : Nat) :
    (∃ id rest, scanId start i cs = .ok (id, rest) ∧
        idEnd (bytes text) i = Checked.result (.ok (i + Text.utf8Length id))) ∨
      (scanId start i cs = .error ⟨start, .missingId⟩ ∧
        idEnd (bytes text) i = Checked.result (.ok (bytes text).length)) ∨
      ∃ e, scanId start i cs = .error e ∧
        idEnd (bytes text) i = Checked.result (.error e) := by
  induction cs generalizing i with
  | nil =>
    have hend : i = (bytes text).length := h.add_utf8Length
    refine .inr (.inl ⟨rfl, ?_⟩)
    rw [idEnd, if_neg (Nat.not_lt.2 hend.ge), ← hend]
    rfl
  | cons c cs ih =>
    obtain ⟨b, hbyte, hb, hmore⟩ := h.exists_byte
    have hlt : i < (bytes text).length := (List.getElem?_eq_some_iff.1 hbyte).1
    rw [idEnd, if_pos hlt, hbyte, Checked.access_some_bind, scanId]
    simp only [hb ';' (by decide), hb '{' (by decide), hb '}' (by decide), hb ',' (by decide)]
    by_cases hend : c = ';'
    · rw [if_pos hend, if_pos hend]
      exact .inl ⟨[], cs, rfl, rfl⟩
    · rw [if_neg hend, if_neg hend]
      by_cases hbad : (c = '{' || c = '}' || c = ',') = true
      · rw [if_pos hbad, if_pos hbad]
        exact .inr (.inr ⟨_, rfl, rfl⟩)
      · rw [if_neg hbad, if_neg hbad, hmore _ fun _ _ => idEnd_pass]
        rcases ih h.tail with ⟨id, rest, hscan, hwalk⟩ | ⟨hscan, hwalk⟩ | ⟨e, hscan, hwalk⟩
        · refine .inl ⟨c :: id, rest, by rw [hscan]; rfl, ?_⟩
          rw [hwalk, Text.utf8Length_cons, Nat.add_assoc]
        · exact .inr (.inl ⟨by rw [hscan]; rfl, hwalk⟩)
        · exact .inr (.inr ⟨e, by rw [hscan]; rfl, hwalk⟩)

/-- The byte after a backslash is escapable exactly if the character there is. -/
theorem any_isEscapableByte (h : At text i cs) :
    (bytes text)[i]?.any isEscapableByte = cs.head?.any isEscapable := by
  cases cs with
  | nil =>
    have hend : i = (bytes text).length := h.add_utf8Length
    rw [hend, List.getElem?_length]
    rfl
  | cons c cs =>
    obtain ⟨b, hbyte, hb, -⟩ := h.exists_byte
    rw [hbyte]
    simp only [Option.any_some, List.head?_cons, isEscapableByte, isEscapable,
      hb '\\' (by decide), hb '{' (by decide), hb '}' (by decide), hb ',' (by decide)]
    rfl

theorem utf8Size_of_isEscapable {c : Char} (h : isEscapable c = true) : c.utf8Size = 1 := by
  simp only [isEscapable, Bool.or_eq_true, beq_iff_eq] at h
  rcases h with ((rfl | rfl) | rfl) | rfl <;> decide

/-- The flags of a walk, where the scan stands in a field. A walk does not stand after a
backslash. -/
def Stands (fieldStart inString : Bool) : FieldState → Prop
  | .atStart => fieldStart = true
  | .inside string => fieldStart = false ∧ inString = string
  | .afterBackslash => False

/-- The first character of a field decides whether it is a string. -/
theorem next_eq_of_stands {fieldStart inString : Bool} {state : FieldState}
    (h : Stands fieldStart inString state) (c : Char) :
    state.next c =
      if (if fieldStart then decide (c = 'S') else inString) && c = '\\' then .afterBackslash
      else .inside (if fieldStart then decide (c = 'S') else inString) := by
  cases state with
  | atStart =>
    cases h
    by_cases hc : c = 'S'
    · subst hc
      rfl
    · simp [FieldState.next, hc]
  | inside string =>
    obtain ⟨rfl, rfl⟩ := h
    rfl
  | afterBackslash => exact h.elim

/-- After a backslash, a character that is not escapable is an ordinary one. -/
theorem scanBody_afterBackslash (start pos : Nat) (h : cs.head?.any isEscapable = false) :
    scanBody start pos .afterBackslash cs = scanBody start pos (.inside true) cs := by
  cases cs with
  | nil => rfl
  | cons c cs =>
    rw [List.head?_cons, Option.any_some, isEscapable_eq_false_iff] at h
    simp [scanBody, FieldState.next, h]

theorem bodyEnd_pass {bs : List UInt8} {b : UInt8} (start : Nat) (string : Bool)
    (hbyte : bs[i]? = some b) (hb : 128 ≤ b.toNat) :
    bodyEnd bs start i false string = bodyEnd bs start (i + 1) false string := by
  have hlt : i < bs.length := (List.getElem?_eq_some_iff.1 hbyte).1
  have hne (d : Char) (hd : d.toNat < 128) : b ≠ d.toUInt8 := Text.ne_toUInt8 hb hd
  rw [bodyEnd, if_pos hlt, hbyte, Checked.access_some_bind]
  simp only [hne '\\' (by decide), hne '{' (by decide), hne '}' (by decide), hne ',' (by decide),
    decide_false, Bool.false_and, Bool.false_eq_true, if_false]

/-- The byte where a body ends, behind one more character. -/
theorem map_consScanned (x : Except Corruption (List Char × List Char)) (c : Char) (i : Nat) :
    (consScanned c x).map (fun scanned => i + Text.utf8Length scanned.1) =
      x.map fun scanned => i + c.utf8Size + Text.utf8Length scanned.1 := by
  cases x with
  | error e => rfl
  | ok scanned => exact congrArg Except.ok (Nat.add_assoc _ _ _).symm

/-- The walk finds the end of a body where the scan does. -/
theorem bodyEnd_eq {text cs : List Char} {i : Nat} (fieldStart inString : Bool)
    (state : FieldState) (h : At text i cs) (hstands : Stands fieldStart inString state)
    (start : Nat) :
    bodyEnd (bytes text) start i fieldStart inString =
      Checked.result ((scanBody start i state cs).map fun scanned =>
        i + Text.utf8Length scanned.1) := by
  cases cs with
  | nil =>
    have hend : i = (bytes text).length := h.add_utf8Length
    rw [bodyEnd, if_neg (Nat.not_lt.2 hend.ge)]
    rfl
  | cons c cs =>
    obtain ⟨b, hbyte, hb, hmore⟩ := h.exists_byte
    have hlt : i < (bytes text).length := (List.getElem?_eq_some_iff.1 hbyte).1
    have hnext := next_eq_of_stands hstands c
    have hstate : state ≠ .afterBackslash := by
      rintro rfl
      exact hstands
    rw [bodyEnd, if_pos hlt, hbyte, Checked.access_some_bind, scanBody, if_neg hstate, hnext]
    simp only [hb '\\' (by decide), hb '{' (by decide), hb '}' (by decide), hb ',' (by decide),
      hb 'S' (by decide)]
    generalize (if fieldStart then decide (c = 'S') else inString) = string
    have hahead := any_isEscapableByte h.tail
    by_cases hback : c = '\\' ∧ string = true
    · obtain ⟨rfl, rfl⟩ := hback
      have hone : ('\\').utf8Size = 1 := by decide
      rw [hone] at hahead
      simp only [hahead]
      cases hescaped : cs.head?.any isEscapable with
      | true =>
        -- the walk passes over two characters, and so does the scan in two steps
        obtain ⟨d, cs, rfl⟩ : ∃ d tail, cs = d :: tail := by
          cases cs with
          | nil => cases hescaped
          | cons d tail => exact ⟨d, tail, rfl⟩
        have htwo : d.utf8Size = 1 := utf8Size_of_isEscapable hescaped
        have ih := bodyEnd_eq false true (.inside true) h.tail.tail ⟨rfl, rfl⟩ start
        rw [hone, htwo] at ih
        simp [map_consScanned, scanBody, FieldState.next, hone, htwo, ih]
      | false =>
        have ih := bodyEnd_eq false true (.inside true) h.tail ⟨rfl, rfl⟩ start
        rw [hone] at ih
        simp [map_consScanned, scanBody_afterBackslash _ _ hescaped, hone, ih]
    · have hplain : (decide (c = '\\') && string) = false := by
        rw [Bool.and_eq_false_iff, decide_eq_false_iff_not, ← Bool.not_eq_true]
        exact not_and_or.1 hback
      simp only [hplain, Bool.and_comm string, Bool.false_and, Bool.false_eq_true, if_false]
      by_cases hcomma : c = ','
      · subst hcomma
        have ih := bodyEnd_eq true string .atStart h.tail rfl start
        have hone : (',').utf8Size = 1 := by decide
        rw [hone] at ih
        simp [map_consScanned, hone, ih]
      · by_cases hclose : c = '}'
        · simp [hclose, Except.map, Checked.pure_eq]
        · by_cases hopen : c = '{'
          · simp [hopen, Except.map, Checked.throw_eq]
          · have ih := bodyEnd_eq false string (.inside string) h.tail ⟨rfl, rfl⟩ start
            rw [if_neg hcomma, if_neg hclose, if_neg hopen, if_neg hclose, if_neg hopen,
              if_neg hcomma, map_consScanned, hmore _ fun _ _ => bodyEnd_pass start string, ih]
termination_by cs.length

/-- What the scan of a record comes to after its id. -/
theorem scanRecord_of_scanId {start : Nat} {id afterId : List Char}
    (hid : scanId start (start + 1) cs = .ok (id, afterId)) (hne : id ≠ []) :
    (scanRecord start ('{' :: cs)).map Prod.fst =
      (scanBody start (start + Text.utf8Length id + 2) .atStart afterId).map fun scanned =>
        { start
          stop := start + Text.utf8Length id + Text.utf8Length scanned.1 + 3
          id := String.ofList id
          body := String.ofList scanned.1 } := by
  rw [scanRecord, hid]
  cases id with
  | nil => exact absurd rfl hne
  | cons c id =>
    dsimp only
    cases scanBody start (start + Text.utf8Length (c :: id) + 2) .atStart afterId <;> rfl

/-- The walk through a record finds what the scan does, and cuts it out of the text. -/
theorem scan_eq (h : At text i (c :: cs)) :
    scan text i = Checked.result ((scanRecord i (c :: cs)).map Prod.fst) := by
  obtain ⟨b, hbyte, hb, -⟩ := h.exists_byte
  rw [scan, hbyte, Checked.access_some_bind]
  simp only [ne_eq, hb '{' (by decide)]
  by_cases hopen : c = '{'
  · subst hopen
    have hone : ('{').utf8Size = 1 := by decide
    have hstart := h.tail
    rw [hone] at hstart
    simp only [not_true_eq_false, if_false]
    rcases idEnd_eq hstart i with ⟨id, afterId, hid, hwalk⟩ | ⟨hid, hwalk⟩ | ⟨e, hid, hwalk⟩
    · obtain ⟨rfl, -⟩ := scanId_eq_ok_iff.1 hid
      rw [hwalk, Checked.result_ok_bind]
      by_cases hne : id = []
      · subst hne
        rw [if_pos (by simp), scanRecord, hid]
        rfl
      · have hlength := hstart.add_utf8Length
        have hpos : Text.utf8Length id ≠ 0 := by
          obtain ⟨d, tail, rfl⟩ := List.exists_cons_of_ne_nil hne
          rw [Text.utf8Length_cons]
          exact Nat.ne_of_gt (Nat.add_pos_left d.utf8Size_pos _)
        have hsep : (';').utf8Size = 1 := by decide
        have hbody := hstart.append.tail
        rw [hsep] at hbody
        have hpos' : i + 1 + Text.utf8Length id + 1 = i + Text.utf8Length id + 2 := by omega
        rw [if_neg (by simp at hlength ⊢; omega), scanRecord_of_scanId hid hne,
          bodyEnd_eq true false .atStart hbody rfl i]
        rw [hpos'] at hbody ⊢
        cases hscan : scanBody i (i + Text.utf8Length id + 2) .atStart afterId with
        | error e => rfl
        | ok scanned =>
          obtain ⟨body, rest⟩ := scanned
          obtain ⟨rfl, -⟩ := scanBody_eq_ok_iff.1 hscan
          have hidSlice := hstart.slice?
          have hbodySlice := hbody.slice?
          simp only [Except.map, Checked.result_ok_bind, hidSlice, hbodySlice,
            Checked.access_some_bind, Checked.pure_eq]
          congr 3
          omega
    · rw [hwalk, Checked.result_ok_bind, if_pos (by simp), scanRecord, hid]
      rfl
    · rw [hwalk, scanRecord, hid]
      rfl
  · have hscan : scanRecord i (c :: cs) = .error ⟨i, .expectedRecord⟩ := by
      unfold scanRecord
      split
      · next heq =>
        cases heq
        exact absurd rfl hopen
      · rfl
    rw [hscan, if_pos hopen]
    rfl

/-! ## A reader -/

/-- A blank is one byte, which the walk passes over. -/
theorem skipBlanks_cons (h : At text i (c :: cs)) :
    skipBlanks (bytes text) i =
      if Text.isAsciiBlank c then skipBlanks (bytes text) (i + 1) else some i := by
  obtain ⟨b, hbyte, hb, -⟩ := h.exists_byte
  have hlt : i < (bytes text).length := (List.getElem?_eq_some_iff.1 hbyte).1
  have hblank : isBlankByte b = Text.isAsciiBlank c := by
    simp only [isBlankByte, Text.isAsciiBlank, hb ' ' (by decide), hb '\t' (by decide),
      hb '\n' (by decide), hb '\x0c' (by decide), hb '\r' (by decide)]
    rfl
  rw [skipBlanks, if_pos hlt, hbyte, Option.bind_eq_bind, Option.bind_some, hblank]
  rfl

/-- Behind the end of the text there is nothing to read. -/
theorem readWithin_of_le (h : (bytes text).length ≤ i) (steps : Nat) :
    readWithin text (steps + 1) i = some [] := by
  have hskip : skipBlanks (bytes text) i = some i := by
    rw [skipBlanks, if_neg (Nat.not_lt.2 h)]
    rfl
  have hnext : next text i = some (none, i) := by
    rw [next, hskip, Option.bind_eq_bind, Option.bind_some, if_pos h]
    rfl
  rw [readWithin, hnext]
  rfl

/-- A reader that passes over a blank. -/
theorem readWithin_of_skipBlanks {j : Nat}
    (h : skipBlanks (bytes text) i = skipBlanks (bytes text) j) (steps : Nat) :
    readWithin text (steps + 1) i = readWithin text (steps + 1) j := by
  have hnext : next text i = next text j := by rw [next, next, h]
  rw [readWithin, hnext, ← readWithin]

/-- The next item of a reader that stands at a character, and where it goes on. -/
theorem next_eq (h : At text i (c :: cs)) (hc : ¬Text.isAsciiBlank c = true) :
    next text i = some (match scanRecord i (c :: cs) with
      | .ok (r, _) => (some (.ok r), r.stop)
      | .error e => (some (.error e), (bytes text).length)) := by
  have hskip := (skipBlanks_cons h).trans (if_neg hc)
  have hlt : ¬(bytes text).length ≤ i := by
    obtain ⟨b, hbyte, -⟩ := h.exists_byte
    exact Nat.not_le.2 (List.getElem?_eq_some_iff.1 hbyte).1
  rw [next, hskip, Option.bind_eq_bind, Option.bind_some, if_neg hlt, scan_eq h]
  cases scanRecord i (c :: cs) <;> rfl

/-- A reader that has come to a character of the text finds what the scan does, in one step for each
character that is left. -/
theorem readWithin_eq {steps : Nat} (h : At text i cs) (hsteps : cs.length ≤ steps) :
    readWithin text (steps + 1) i = some (records i cs) := by
  fun_induction records i cs generalizing steps with
  | case1 pos => exact readWithin_of_le h.add_utf8Length.ge steps
  | case2 pos c cs hc ih =>
    have htail := h.tail
    rw [Text.utf8Size_of_isAsciiBlank hc] at htail
    rw [readWithin_of_skipBlanks ((skipBlanks_cons h).trans (if_pos hc)),
      ih htail (Nat.le_of_succ_le hsteps)]
  | case3 pos c cs hc e hscan =>
    obtain ⟨steps, rfl⟩ := Nat.exists_eq_add_of_le' (Nat.le_of_add_left_le hsteps)
    rw [readWithin, next_eq h hc, hscan, Option.bind_eq_bind, Option.bind_some]
    dsimp only
    rw [readWithin_of_le (Nat.le_refl _)]
    rfl
  | case4 pos c cs hc raw rest hscan hlt ih =>
    obtain ⟨steps, rfl⟩ := Nat.exists_eq_add_of_le' (Nat.le_of_add_left_le hsteps)
    obtain ⟨r, hr, rfl⟩ := exists_record_of_scanRecord hscan
    rw [hr] at h
    rw [readWithin, next_eq (hr ▸ h) hc, hscan, Option.bind_eq_bind, Option.bind_some]
    dsimp only
    rw [ih h.append (Nat.le_of_lt_succ (hlt.trans_le hsteps))]
    rfl

/-- Within a character there is no delimiter. -/
theorem read_of_inside {before after : List Char} {k : Nat} (hpos : 0 < k) (hk : k < c.utf8Size) :
    read (before ++ c :: after) (Text.utf8Length before + k) =
      some [.error ⟨Text.utf8Length before + k, .expectedRecord⟩] := by
  obtain ⟨b, hbyte, hb⟩ := Text.exists_byte_inside before after hpos hk
  generalize before ++ c :: after = text at hbyte
  generalize Text.utf8Length before + k = i at hbyte
  have hne (d : Char) (hd : d.toNat < 128) : b ≠ d.toUInt8 := Text.ne_toUInt8 hb hd
  have hlt : i < (bytes text).length := (List.getElem?_eq_some_iff.1 hbyte).1
  have hblank : isBlankByte b = false := by
    simp only [isBlankByte, hne ' ' (by decide), hne '\t' (by decide), hne '\n' (by decide),
      hne '\x0c' (by decide), hne '\r' (by decide), decide_false, Bool.or_false]
  have hskip : skipBlanks (bytes text) i = some i := by
    rw [skipBlanks, if_pos hlt, hbyte, Option.bind_eq_bind, Option.bind_some, hblank]
    rfl
  have hscan : scan text i = Checked.result (.error ⟨i, .expectedRecord⟩) := by
    rw [scan, hbyte, Checked.access_some_bind, if_pos (hne '{' (by decide))]
    rfl
  have hnext : next text i = some (some (.error ⟨i, .expectedRecord⟩), (bytes text).length) := by
    rw [next, hskip, Option.bind_eq_bind, Option.bind_some, if_neg (Nat.not_le.2 hlt), hscan]
    rfl
  obtain ⟨steps, hsteps⟩ := Nat.exists_eq_add_of_lt hlt
  rw [read, hsteps, readWithin, hnext, Option.bind_eq_bind, Option.bind_some]
  dsimp only
  rw [readWithin_of_le (Nat.le_refl _)]
  rfl

/-- A reader that is started at any byte, be it within a character or behind the end of the text,
finds what the scan does from there. -/
theorem read_eq_recordsFrom (text : String) (offset : Nat) :
    read text.toList offset = some (recordsFrom text offset) := by
  rw [recordsFrom]
  cases hdrop : dropBytes? offset text.toList with
  | some rest =>
    rcases Text.at_of_dropBytes? hdrop with h | ⟨rfl, h⟩
    · exact readWithin_eq h h.length_le
    · rw [read, readWithin_of_le h]
      exact congrArg some (records.eq_1 offset).symm
  | none =>
    obtain ⟨before, c, after, k, htext, hpos, hk, rfl⟩ := Text.exists_of_dropBytes?_eq_none hdrop
    rw [htext, read_of_inside hpos hk]

end Walk

end RecordStore

import RecordStore.Record.Basic
import RecordStore.Text.Blank

/-!
# Finding the records of a table file

Records stand one after the other with nothing but ASCII blanks between them. `records` finds them
without looking at their fields, except that a backslash escapes the next character in a field that
starts as a string does. It ends at the first fault, which is then its last item.

- `scanId`, `scanBody`: the two parts of a record, up to the `;` and the closing brace;
- `scanRecord`: the record at the start of a text;
- `records`: the records of a text from a byte position on;
- `recordsFrom`: the records of a text from any byte offset, even one inside a character.
-/

namespace RecordStore

/-- Adds a character to the first part of a scan. -/
def consScanned {α : Type} (c : Char) (scanned : Except Corruption (List Char × α)) :
    Except Corruption (List Char × α) :=
  scanned.map fun (cs, rest) => (c :: cs, rest)

/-- The id of a record up to its `;` and the text after that. `start` is where the record starts and
`pos` where the text does. -/
def scanId (start pos : Nat) : List Char → Except Corruption (List Char × List Char)
  | [] => .error ⟨start, .missingId⟩
  | c :: cs =>
    if c = ';' then .ok ([], cs)
    else if c = '{' || c = '}' || c = ',' then .error ⟨pos, .malformedId⟩
    else consScanned c (scanId start (pos + c.utf8Size) cs)

/-- Where in a field a scan stands. Only a string can be left after a backslash. -/
inductive FieldState where
  | atStart
  | inside (string : Bool)
  | afterBackslash
  deriving DecidableEq, Repr

/-- The state after an ordinary character. The first character of a field decides whether it is a
string, and a backslash matters only in a string. -/
def FieldState.next (state : FieldState) (c : Char) : FieldState :=
  match state with
  | atStart => inside (c == 'S')
  | inside string => if string && c == '\\' then afterBackslash else inside string
  | afterBackslash => inside true

/-- The body of a record up to its closing brace and the text after that. In a string the character
after a backslash is an ordinary one: if it is not escapable, it is so in any case. -/
def scanBody (start pos : Nat) (state : FieldState) :
    List Char → Except Corruption (List Char × List Char)
  | [] => .error ⟨start, .unterminatedRecord⟩
  | c :: cs =>
    if state = .afterBackslash then
      consScanned c (scanBody start (pos + c.utf8Size) (state.next c) cs)
    else if c = '}' then .ok ([], cs)
    else if c = '{' then .error ⟨pos, .unexpectedBrace⟩
    else if c = ',' then consScanned c (scanBody start (pos + 1) .atStart cs)
    else consScanned c (scanBody start (pos + c.utf8Size) (state.next c) cs)

/-- The record at the start of a text, which stands at byte `start`, and the text after it. -/
def scanRecord (start : Nat) : List Char → Except Corruption (RawRecord × List Char)
  | '{' :: cs =>
    match scanId start (start + 1) cs with
    | .error e => .error e
    | .ok ([], _) => .error ⟨start, .missingId⟩
    | .ok (id, afterId) =>
      match scanBody start (start + Text.utf8Length id + 2) .atStart afterId with
      | .error e => .error e
      | .ok (body, rest) =>
        .ok
          ({ start
             stop := start + Text.utf8Length id + Text.utf8Length body + 3
             id := String.ofList id
             body := String.ofList body }, rest)
  | _ => .error ⟨start, .expectedRecord⟩

/-! ## The text that is left gets shorter -/

theorem consScanned_eq_ok {α : Type} {c : Char} {x : Except Corruption (List Char × α)}
    {cs : List Char} {rest : α} (h : consScanned c x = .ok (cs, rest)) :
    ∃ tail, cs = c :: tail ∧ x = .ok (tail, rest) := by
  cases x with
  | error e => simp [consScanned, Except.map] at h
  | ok p => obtain ⟨t, r⟩ := p; simp_all [consScanned, Except.map]

/-- An id and the `;` after it are what a scan takes from the text. -/
theorem eq_append_of_scanId {start pos : Nat} {cs id rest : List Char}
    (h : scanId start pos cs = .ok (id, rest)) : cs = id ++ ';' :: rest := by
  induction cs generalizing pos id with
  | nil => simp [scanId] at h
  | cons c cs ih =>
    unfold scanId at h
    split at h
    · next hc => simp_all
    · split at h
      · simp at h
      · obtain ⟨tail, rfl, ht⟩ := consScanned_eq_ok h
        simp [← ih ht]

/-- A body and the brace after it are what a scan takes from the text. -/
theorem eq_append_of_scanBody {start pos : Nat} {state : FieldState} {cs body rest : List Char}
    (h : scanBody start pos state cs = .ok (body, rest)) : cs = body ++ '}' :: rest := by
  induction cs generalizing pos state body with
  | nil => simp [scanBody] at h
  | cons c cs ih =>
    unfold scanBody at h
    split at h
    · obtain ⟨tail, rfl, ht⟩ := consScanned_eq_ok h
      simp [← ih ht]
    · split at h
      · simp_all
      · split at h
        · simp at h
        · split at h <;>
          · obtain ⟨tail, rfl, ht⟩ := consScanned_eq_ok h
            simp [← ih ht]

/-- A record is at least three characters long. -/
theorem scanRecord_shortens {start : Nat} {cs rest : List Char} {r : RawRecord}
    (h : scanRecord start cs = .ok (r, rest)) : rest.length < cs.length := by
  unfold scanRecord at h
  split at h
  · next cs =>
    split at h
    · simp at h
    · simp at h
    · next id afterId _ hid =>
      split at h
      · simp at h
      · next body rest' hbody =>
        have h₁ := congrArg List.length (eq_append_of_scanId hid)
        have h₂ := congrArg List.length (eq_append_of_scanBody hbody)
        simp only [Except.ok.injEq, Prod.mk.injEq] at h
        obtain ⟨-, rfl⟩ := h
        simp at h₁ h₂ ⊢
        omega
  · simp at h

/-! ## All records -/

/-- The records of a text that stands at byte `pos`, each found or, at most once and last, a
fault. -/
def records (pos : Nat) : List Char → List (Except Corruption RawRecord)
  | [] => []
  | c :: cs =>
    if Text.isAsciiBlank c then records (pos + 1) cs
    else
      match h : scanRecord pos (c :: cs) with
      | .error e => [.error e]
      | .ok (r, rest) =>
        have : rest.length < cs.length + 1 := scanRecord_shortens h
        .ok r :: records r.stop rest
termination_by cs => cs.length

/-- The text after a number of bytes, or nothing if they end inside a character. Past the end of the
text there is no more of it. -/
def dropBytes? : Nat → List Char → Option (List Char)
  | 0, cs => some cs
  | _ + 1, [] => some []
  | n + 1, c :: cs => if c.utf8Size ≤ n + 1 then dropBytes? (n + 1 - c.utf8Size) cs else none

/-- The records of a text from a byte offset on. No record starts inside a character. -/
def recordsFrom (text : String) (offset : Nat) : List (Except Corruption RawRecord) :=
  match dropBytes? offset text.toList with
  | some cs => records offset cs
  | none => [.error ⟨offset, .expectedRecord⟩]

end RecordStore

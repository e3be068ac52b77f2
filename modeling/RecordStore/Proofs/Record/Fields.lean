import RecordStore.Proofs.Decimal.Spelling
import RecordStore.Proofs.Text.Split
import RecordStore.Record.Reader

/-!
# Fields of a record

The text of a value goes through three readers that know nothing of each other: the scan for the end
of the record, the cut at commas and the reading of the value. Each of them agrees with the writer.

- `FieldState.run`: the scan for the end as a walk through states, free of positions
  (`scanBody_eq_ok_iff`);
- `run_encode`: the scan passes over a whole value;
- `Unsplit`: a text that the cut at commas leaves in one piece (`unsplit_encode`);
- `IsField`: a text that is one field, as every value is (`isField_encode`);
- `enclosed_join`, `splitFields_join`: a body that is put together from fields;
- `decode?_encode`: a value is read back from its field.
-/

namespace RecordStore

/-! ## The scan for the end of a record -/

/-- The state after one character of a body, or nothing if the body ends or breaks off there. -/
def FieldState.step (state : FieldState) (c : Char) : Option FieldState :=
  if state = .afterBackslash then some (state.next c)
  else if c = '}' || c = '{' then none
  else if c = ',' then some .atStart
  else some (state.next c)

/-- The state after a text that lies within a body. -/
def FieldState.run (state : FieldState) (cs : List Char) : Option FieldState :=
  cs.foldlM FieldState.step state

@[simp] theorem FieldState.run_nil (state : FieldState) : state.run [] = some state := rfl

@[simp] theorem FieldState.run_cons (state : FieldState) (c : Char) (cs : List Char) :
    state.run (c :: cs) = (state.step c).bind (·.run cs) := rfl

theorem FieldState.run_append (state : FieldState) (a b : List Char) :
    state.run (a ++ b) = (state.run a).bind (·.run b) := by
  simp [FieldState.run, List.foldlM_append]

/-- A text that a record may have as its body: no brace ends it early, and the brace after it is not
escaped. -/
def Enclosed (state : FieldState) (body : List Char) : Prop :=
  ∃ last, state.run body = some last ∧ last ≠ .afterBackslash

theorem enclosed_nil_iff {state : FieldState} : Enclosed state [] ↔ state ≠ .afterBackslash := by
  simp [Enclosed]

theorem enclosed_cons_iff {state : FieldState} {c : Char} {cs : List Char} :
    Enclosed state (c :: cs) ↔ ∃ next, state.step c = some next ∧ Enclosed next cs := by
  simp only [Enclosed, FieldState.run_cons, Option.bind_eq_some_iff]
  constructor
  · rintro ⟨last, ⟨next, hstep, hrun⟩, hlast⟩
    exact ⟨next, hstep, last, hrun, hlast⟩
  · rintro ⟨next, hstep, last, hrun, hlast⟩
    exact ⟨last, ⟨next, hstep, hrun⟩, hlast⟩

/-- A character that does not end the body is passed over. -/
theorem scanBody_of_step {state next : FieldState} {c : Char} (h : state.step c = some next)
    (start pos : Nat) (cs : List Char) :
    ∃ pos', scanBody start pos state (c :: cs) = consScanned c (scanBody start pos' next cs) := by
  unfold FieldState.step at h
  rw [scanBody]
  split at h
  · next hstate =>
    cases h
    exact ⟨_, if_pos hstate⟩
  · next hstate =>
    split at h
    · cases h
    · next hbrace =>
      simp only [Bool.or_eq_true, decide_eq_true_eq, not_or] at hbrace
      rw [if_neg hstate, if_neg hbrace.1, if_neg hbrace.2]
      split at h
      · next hcomma =>
        cases h
        exact ⟨_, if_pos hcomma⟩
      · next hcomma =>
        cases h
        exact ⟨_, if_neg hcomma⟩

/-- Any other character is a brace, and only a closing one ends the body well. -/
theorem eq_of_scanBody_of_step {state : FieldState} {c : Char} (h : state.step c = none)
    {start pos : Nat} {cs body rest : List Char}
    (hscan : scanBody start pos state (c :: cs) = .ok (body, rest)) :
    state ≠ .afterBackslash ∧ body = [] := by
  unfold FieldState.step at h
  unfold scanBody at hscan
  split at h
  · cases h
  · next hstate =>
    split at h
    · next hbrace =>
      rw [if_neg hstate] at hscan
      split at hscan
      · cases hscan
        exact ⟨hstate, rfl⟩
      · next hclose =>
        simp only [Bool.or_eq_true, decide_eq_true_eq, hclose, false_or] at hbrace
        rw [if_pos hbrace] at hscan
        cases hscan
    · split at h <;> cases h

/-- The scan finds a body exactly if one is there, wherever it stands. -/
theorem scanBody_eq_ok_iff {start pos : Nat} {state : FieldState} {cs body rest : List Char} :
    scanBody start pos state cs = .ok (body, rest) ↔
      cs = body ++ '}' :: rest ∧ Enclosed state body := by
  constructor
  -- the scan stops at the first character that the walk through states does not pass
  · intro h
    refine ⟨eq_append_of_scanBody h, ?_⟩
    induction cs generalizing pos state body with
    | nil => cases h
    | cons c cs ih =>
      cases hstep : state.step c with
      | none =>
        obtain ⟨hstate, rfl⟩ := eq_of_scanBody_of_step hstep h
        exact enclosed_nil_iff.2 hstate
      | some next =>
        obtain ⟨pos', hscan⟩ := scanBody_of_step hstep start pos cs
        rw [hscan] at h
        obtain ⟨tail, rfl, htail⟩ := consScanned_eq_ok h
        exact enclosed_cons_iff.2 ⟨next, hstep, ih htail⟩
  · rintro ⟨rfl, h⟩
    induction body generalizing pos state with
    | nil =>
      have hstate := enclosed_nil_iff.1 h
      simp [scanBody, hstate]
    | cons c body ih =>
      obtain ⟨next, hstep, htail⟩ := enclosed_cons_iff.1 h
      obtain ⟨pos', hscan⟩ := scanBody_of_step hstep start pos (body ++ '}' :: rest)
      rw [List.cons_append, hscan, ih htail]
      rfl

/-! ## Numbers need no escapes -/

theorem isEscapable_eq_false_iff {c : Char} :
    isEscapable c = false ↔ c ≠ '\\' ∧ c ≠ '{' ∧ c ≠ '}' ∧ c ≠ ',' := by
  simp [isEscapable, and_assoc]

theorem isEscapable_of_isNumberChar {c : Char} (h : Numeral.isNumberChar c = true) :
    isEscapable c = false := by
  have hplain := Numeral.of_isNumberChar (p := fun c => !isEscapable c) (by decide) h
  simpa using hplain

theorem isEscapable_of_mem_writeDecimal {x : Float} {c : Char} (h : c ∈ Numeral.writeDecimal x) :
    isEscapable c = false := by
  by_cases hfinite : x.isFinite = true
  · exact isEscapable_of_isNumberChar (Numeral.isNumberChar_of_mem_writeDecimal hfinite h)
  · -- the three names of what is not finite
    have hnames : ("NaN".toList ++ '-' :: "inf".toList).all (!isEscapable ·) = true := by decide
    have hmem : c ∈ "NaN".toList ++ '-' :: "inf".toList := by
      unfold Numeral.writeDecimal at h
      rw [if_neg hfinite] at h
      split at h
      · exact List.mem_append_left _ h
      · dsimp only at h
        split at h
        · exact List.mem_append_right _ h
        · exact List.mem_append_right _ (List.mem_cons_of_mem _ h)
    simpa using List.all_eq_true.1 hnames c hmem

/-! ## The scan and what is written -/

/-- Outside strings any character but a brace or a comma is passed over. -/
theorem run_inside_plain {cs : List Char} (h : ∀ c ∈ cs, isEscapable c = false) :
    (FieldState.inside false).run cs = some (.inside false) := by
  induction cs with
  | nil => rfl
  | cons c cs ih =>
    obtain ⟨hc, hcs⟩ := List.forall_mem_cons.1 h
    rw [isEscapable_eq_false_iff] at hc
    simp [FieldState.step, FieldState.next, hc, ih hcs]

/-- In a string every character is passed over once it is escaped. -/
theorem run_inside_escape (cs : List Char) :
    (FieldState.inside true).run (escape cs) = some (.inside true) := by
  induction cs with
  | nil => rfl
  | cons c cs ih =>
    unfold escape
    split
    -- a character after a backslash is passed over whatever it is
    · simp [FieldState.step, FieldState.next, ih]
    · next hc =>
      rw [Bool.not_eq_true, isEscapable_eq_false_iff] at hc
      simp [FieldState.step, FieldState.next, hc, ih]

/-- The scan passes over a value and remembers only whether it was a string. -/
theorem run_encode (v : Value) :
    FieldState.atStart.run v.encode = some (.inside (v.storageType == .string)) := by
  cases v with
  | int n =>
    show (FieldState.inside false).run (Numeral.writeInt64 n) = some (.inside false)
    exact run_inside_plain fun c hc =>
      isEscapable_of_isNumberChar (Numeral.isNumberChar_of_mem_writeInt hc)
  | dec x =>
    show (FieldState.inside false).run (Numeral.writeDecimal x) = some (.inside false)
    exact run_inside_plain fun c => isEscapable_of_mem_writeDecimal
  | str s =>
    show (FieldState.inside true).run (escape s.toList) = some (.inside true)
    exact run_inside_escape s.toList

/-- A comma that follows a value starts the next field. -/
theorem run_comma (string : Bool) (cs : List Char) :
    (FieldState.inside string).run (',' :: cs) = FieldState.atStart.run cs := by
  simp [FieldState.step]

/-! ## The cut at commas -/

/-- A text that the cut at commas leaves in one piece, whatever follows. -/
def Unsplit (cs : List Char) : Prop :=
  ∀ rest, splitUnescaped (cs ++ rest) = cs.foldr Text.extendFirst (splitUnescaped rest)

theorem Unsplit.append {a b : List Char} (ha : Unsplit a) (hb : Unsplit b) : Unsplit (a ++ b) :=
  fun rest => by rw [List.append_assoc, ha, hb, List.foldr_append]

theorem unsplit_nil : Unsplit [] := fun _ => rfl

theorem unsplit_singleton {c : Char} (h : c ≠ ',' ∧ c ≠ '\\') : Unsplit [c] := by
  rintro (_ | ⟨d, rest⟩)
  · simp [splitUnescaped, h, Text.extendFirst]
  · simp [splitUnescaped, h]

theorem unsplit_escaped {d : Char} (h : isEscapable d = true) : Unsplit ['\\', d] :=
  fun rest => by simp [splitUnescaped, h]

theorem unsplit_plain {cs : List Char} (h : ∀ c ∈ cs, isEscapable c = false) : Unsplit cs := by
  induction cs with
  | nil => exact unsplit_nil
  | cons c cs ih =>
    obtain ⟨hc, hcs⟩ := List.forall_mem_cons.1 h
    obtain ⟨hback, -, -, hcomma⟩ := isEscapable_eq_false_iff.1 hc
    exact (unsplit_singleton ⟨hcomma, hback⟩).append (ih hcs)

theorem unsplit_escape (cs : List Char) : Unsplit (escape cs) := by
  induction cs with
  | nil => exact unsplit_nil
  | cons c cs ih =>
    unfold escape
    split
    · next hc => exact (unsplit_escaped hc).append ih
    · next hc =>
      obtain ⟨hback, -, -, hcomma⟩ := isEscapable_eq_false_iff.1 (Bool.eq_false_iff.2 hc)
      exact (unsplit_singleton ⟨hcomma, hback⟩).append ih

/-- A value is one field. -/
theorem unsplit_encode (v : Value) : Unsplit v.encode := by
  have hplain : ∀ type : StorageType, type.tag ≠ ',' ∧ type.tag ≠ '\\' := by
    rintro (_ | _ | _) <;> decide
  have htag : Unsplit [v.storageType.tag] := unsplit_singleton (hplain v.storageType)
  have hcontent : Unsplit v.encodeContent := by
    cases v with
    | int n => exact unsplit_plain fun c hc =>
      isEscapable_of_isNumberChar (Numeral.isNumberChar_of_mem_writeInt hc)
    | dec x => exact unsplit_plain fun c => isEscapable_of_mem_writeDecimal
    | str s => exact unsplit_escape s.toList
  exact htag.append ((unsplit_singleton (c := ':') (by decide)).append hcontent)

theorem splitUnescaped_comma (cs : List Char) :
    splitUnescaped (',' :: cs) = [] :: splitUnescaped cs := by
  cases cs <;> simp [splitUnescaped]

/-! ## Bodies that are put together from fields -/

/-- A text that is one field wherever it stands in a body: the scan passes over it and does not end
after a backslash, and the cut at commas leaves it in one piece. -/
structure IsField (field : List Char) : Prop where
  ne_nil : field ≠ []
  run : ∃ string, FieldState.atStart.run field = some (.inside string)
  unsplit : Unsplit field

theorem isField_encode (v : Value) : IsField v.encode where
  ne_nil := List.cons_ne_nil _ _
  run := ⟨_, run_encode v⟩
  unsplit := unsplit_encode v

/-- Fields with commas between them may be the body of a record. -/
theorem enclosed_join {fields : List (List Char)} (h : ∀ f ∈ fields, IsField f) :
    Enclosed .atStart (Text.join [','] fields) := by
  induction fields with
  | nil => exact enclosed_nil_iff.2 (by decide)
  | cons f fields ih =>
    obtain ⟨hf, hfields⟩ := List.forall_mem_cons.1 h
    obtain ⟨string, hrun⟩ := hf.run
    cases fields with
    | nil => exact ⟨_, hrun, by simp⟩
    | cons g fields =>
      obtain ⟨last, hrest, hlast⟩ := ih hfields
      refine ⟨last, ?_, hlast⟩
      -- whether the value was a string is forgotten at the comma
      rw [Text.join, List.append_assoc, FieldState.run_append, hrun, Option.bind_some,
        List.singleton_append, run_comma]
      · exact hrest
      · simp

/-- The fields of a body that is put together from fields are these. -/
theorem splitFields_join {fields : List (List Char)} (h : ∀ f ∈ fields, IsField f) :
    splitFields (Text.join [','] fields) = fields := by
  have hsplit : ∀ f fields, (∀ g ∈ f :: fields, IsField g) →
      splitUnescaped (Text.join [','] (f :: fields)) = f :: fields := by
    intro f fields h
    induction fields generalizing f with
    | nil =>
      have hf := (h f List.mem_cons_self).unsplit []
      rw [List.append_nil, splitUnescaped, Text.foldr_extendFirst, List.append_nil] at hf
      exact hf
    | cons g fields ih =>
      obtain ⟨hf, hfields⟩ := List.forall_mem_cons.1 h
      rw [Text.join, List.append_assoc, List.singleton_append, hf.unsplit, splitUnescaped_comma,
        Text.foldr_extendFirst, List.append_nil]
      · exact congrArg (f :: ·) (ih g hfields)
      · simp
  cases fields with
  -- no values make no text, which has no fields and not one empty field
  | nil => rfl
  | cons f fields =>
    have hne := (h f List.mem_cons_self).ne_nil
    rw [splitFields, if_neg, hsplit f fields h]
    cases fields <;> simp [Text.join, hne]

/-! ## Reading a field -/

/-- A value is read back from its field. -/
theorem decode?_encode (v : Value) : Value.decode? v.storageType v.encode = some v := by
  rw [Value.encode, Value.decode?, if_pos rfl]
  cases v with
  | int n => simp [Value.decodeContent?, Value.storageType, Value.encodeContent,
      Numeral.readInt64?_writeInt64]
  | dec x => simp [Value.decodeContent?, Value.storageType, Value.encodeContent,
      Numeral.readDecimal?_writeDecimal]
  | str s => simp [Value.decodeContent?, Value.storageType, Value.encodeContent, unescape_escape]

end RecordStore

import RecordStore.Proofs.Record.Header
import RecordStore.Proofs.Record.Walk

/-!
# Cutting fields and headers out of a text

The fields of a record, the text of a value and the columns of a header are cut out of a text at the
byte positions of delimiters. As the delimiters are single bytes, every cut is one between two
characters, also where the text is nothing that was ever written.

- `Walk.fields`, `Walk.value`, `Walk.entry`: the entry of a record; `entry_eq`;
- `Walk.header`: the header of a file; `header_eq`.
-/

namespace RecordStore

namespace Checked

variable {ε ε' α β : Type}

theorem adapt_result (f : ε → ε') (r : Except ε α) :
    ExceptT.adapt f (result r) = result (r.mapError f) := by
  cases r <;> rfl

/-- Steps that have come to something, one after the other. -/
theorem mapM_result (f : α → Except ε β) (as : List α) :
    (as.mapM fun a => result (f a)) = result (as.mapM f) := by
  induction as with
  | nil => rfl
  | cons a as ih =>
    rw [List.mapM_cons, List.mapM_cons, ih]
    cases f a with
    | error e => rfl
    | ok b =>
      cases as.mapM f <;> rfl

end Checked

namespace Walk

open Text (bytes At slice?)

/-! ## The walk -/

/-- The fields of a body from byte `start` on, the first of which reaches up to byte `i` at
least. -/
def fieldsFrom (body : List Char) (start i : Nat) : Option (List (List Char)) := do
  if i < (bytes body).length then
    let b ← (bytes body)[i]?
    if b = '\\'.toUInt8 && (bytes body)[i + 1]?.any isEscapableByte then
      fieldsFrom body start (i + 2)
    else if b = ','.toUInt8 then
      let field ← slice? start i body
      let fields ← fieldsFrom body (i + 1) (i + 1)
      return field :: fields
    else fieldsFrom body start (i + 1)
  else
    let field ← slice? start (bytes body).length body
    return [field]
termination_by (bytes body).length - i
decreasing_by all_goals exact Nat.sub_lt_sub_left ‹i < _› (by omega)

/-- The fields of the body of a record. -/
def fields (body : List Char) : Option (List (List Char)) :=
  if body.isEmpty then some [] else fieldsFrom body 0 0

/-- The value of a field, the text of which is cut off behind the tag and the colon. -/
def value (type : StorageType) (field : List Char) : Option (Option Value) :=
  match field with
  | tag :: ':' :: _ =>
    if tag = type.tag then do
      let content ← slice? 2 (bytes field).length field
      return Value.decodeContent? type content
    else some none
  | _ => some none

/-- The field of a column, with the column's name. -/
def namedValue (field : List Char) (column : Column) : Checked FormatFault (String × Value) := do
  match ← Checked.access (value column.type field) with
  | some value => return (column.name, value)
  | none => throw (.badValue (String.ofList field) column.name)

/-- The entry that a record holds under a schema. -/
def entry (r : RawRecord) (schema : Schema) : Checked Corruption Entry := do
  let fields ← Checked.access (fields r.body.toList)
  if fields.length ≠ schema.size then
    throw ⟨r.start, .fieldCount schema.size fields.length⟩
  let data ← ExceptT.adapt (Corruption.mk r.start) <|
    (fields.zip schema.columns).mapM fun (field, column) => namedValue field column
  return { id := r.id, data }

/-- The header at the start of a text. -/
def header (text : List Char) : Checked Corruption Header := do
  if text.head? ≠ some '[' then throw ⟨0, .missingHeader⟩
  match Text.position? ']' text with
  | none => throw ⟨0, .unterminatedHeader⟩
  | some close =>
    let body ← Checked.access (slice? 1 close text)
    let (name, schema) ← Checked.result (Header.decodeBody body)
    return { name, schema, length := close + 1 }

/-! ## Fields -/

/-- A character that is no comma and escapes nothing belongs to the first field. -/
theorem splitUnescaped_plain {c : Char} {cs : List Char} (hcomma : c ≠ ',')
    (hplain : (c = '\\' && cs.head?.any isEscapable) = false) :
    splitUnescaped (c :: cs) = Text.extendFirst c (splitUnescaped cs) := by
  cases cs with
  | nil => simp [splitUnescaped, hcomma, Text.extendFirst]
  | cons d cs =>
    have hescape : (c == '\\' && isEscapable d) = false := hplain
    rw [splitUnescaped, if_neg hcomma, if_neg]
    simpa using hescape

theorem fieldsFrom_pass {body : List Char} {b : UInt8} {i : Nat} (start : Nat)
    (hbyte : (bytes body)[i]? = some b) (hb : 128 ≤ b.toNat) :
    fieldsFrom body start i = fieldsFrom body start (i + 1) := by
  have hlt : i < (bytes body).length := (List.getElem?_eq_some_iff.1 hbyte).1
  have hne (d : Char) (hd : d.toNat < 128) : b ≠ d.toUInt8 := Text.ne_toUInt8 hb hd
  rw [fieldsFrom, if_pos hlt, hbyte, Option.bind_eq_bind, Option.bind_some]
  simp only [hne '\\' (by decide), hne ',' (by decide), decide_false, Bool.false_and,
    Bool.false_eq_true, if_false]

/-- The walk cuts a body where the cut at commas does. The characters of `part` are those of the
current field that it has passed over. -/
theorem fieldsFrom_eq {body cs : List Char} {start i : Nat} (part : List Char)
    (h : At body start (part ++ cs)) (hi : start + Text.utf8Length part = i) :
    fieldsFrom body start i = some (part.foldr Text.extendFirst (splitUnescaped cs)) := by
  have hat : At body i cs := hi ▸ h.append
  have hfield := h.slice?
  rw [hi] at hfield
  have happend (passed : List Char) (tail : List Char) (hcs : passed ++ tail = cs) :
      At body start ((part ++ passed) ++ tail) := by
    rwa [List.append_assoc, hcs]
  cases cs with
  | nil =>
    have hend : i = (bytes body).length := hat.add_utf8Length
    rw [hend] at hfield ⊢
    rw [fieldsFrom, if_neg (lt_irrefl _), hfield, splitUnescaped, Text.foldr_extendFirst,
      List.append_nil]
    rfl
  | cons c cs =>
    obtain ⟨b, hbyte, hb, hmore⟩ := hat.exists_byte
    have hlt : i < (bytes body).length := (List.getElem?_eq_some_iff.1 hbyte).1
    have hahead := any_isEscapableByte hat.tail
    rw [fieldsFrom, if_pos hlt, hbyte, Option.bind_eq_bind, Option.bind_some]
    simp only [hb '\\' (by decide), hb ',' (by decide)]
    by_cases hescape : c = '\\' ∧ cs.head?.any isEscapable = true
    · obtain ⟨rfl, hescaped⟩ := hescape
      have hone : ('\\').utf8Size = 1 := by decide
      rw [hone] at hahead
      obtain ⟨d, cs, rfl⟩ : ∃ d tail, cs = d :: tail := by
        cases cs with
        | nil => cases hescaped
        | cons d tail => exact ⟨d, tail, rfl⟩
      have htwo : d.utf8Size = 1 := utf8Size_of_isEscapable hescaped
      have ih := fieldsFrom_eq (i := i + 2) _ (happend ['\\', d] cs rfl)
        (by simp [hone, htwo]; omega)
      rw [if_pos (by rw [hahead, hescaped]; rfl), ih, List.foldr_append]
      exact congrArg (fun fields => some (part.foldr Text.extendFirst fields))
        (unsplit_escaped hescaped cs).symm
    · have hplain : (decide (c = '\\') && cs.head?.any isEscapable) = false := by
        rw [Bool.and_eq_false_iff, decide_eq_false_iff_not, ← Bool.not_eq_true]
        exact not_and_or.1 hescape
      have hwalk : (decide (c = '\\') && (bytes body)[i + 1]?.any isEscapableByte) = false := by
        by_cases hback : c = '\\'
        · subst hback
          have hone : ('\\').utf8Size = 1 := by decide
          rw [← hone, hahead]
          exact hplain
        · rw [decide_eq_false hback, Bool.false_and]
      rw [if_neg (Bool.not_eq_true _ ▸ hwalk)]
      by_cases hcomma : c = ','
      · subst hcomma
        have hafter : At body (i + 1) ([] ++ cs) := hat.tail
        have ih := fieldsFrom_eq (i := i + 1) [] hafter rfl
        rw [if_pos rfl, hfield, ih, splitUnescaped_comma, Text.foldr_extendFirst, List.append_nil]
        rfl
      · have ih := fieldsFrom_eq (i := i + c.utf8Size) _ (happend [c] cs rfl) (by simp; omega)
        rw [if_neg hcomma, hmore _ fun _ _ => fieldsFrom_pass start, ih,
          splitUnescaped_plain hcomma hplain, List.foldr_append]
        rfl
termination_by cs.length

theorem fields_eq (body : List Char) : fields body = some (splitFields body) := by
  rw [fields, splitFields]
  split
  · rfl
  · exact fieldsFrom_eq [] (.start body) rfl

/-- Behind the tag and the colon the text of a field can be cut. -/
theorem value_eq (type : StorageType) (field : List Char) :
    value type field = some (Value.decode? type field) := by
  unfold value
  split
  · next tag content =>
    show _ = some (if tag = type.tag then Value.decodeContent? type content else none)
    split
    · next htag =>
      subst htag
      have hcut : Text.utf8Length [type.tag, ':'] = 2 := by cases type <;> rfl
      have hat : At (type.tag :: ':' :: content) 2 (content ++ []) := by
        rw [List.append_nil, ← hcut]
        exact ⟨[type.tag, ':'], rfl, rfl⟩
      have hlength := hat.add_utf8Length
      rw [List.append_nil] at hlength
      rw [← hlength, hat.slice?]
      rfl
    · rfl
  · next hother =>
    unfold Value.decode?
    split
    · next tag content => exact absurd rfl (hother tag content)
    · rfl

theorem namedValue_eq (field : List Char) (column : Column) :
    namedValue field column = Checked.result (decodeField field column) := by
  rw [namedValue, value_eq, Checked.access_some_bind, decodeField]
  cases Value.decode? column.type field <;> rfl

/-- The walk through the fields of a record finds the entry that it holds. -/
theorem entry_eq (r : RawRecord) (schema : Schema) :
    entry r schema = Checked.result (r.decode schema) := by
  rw [entry, fields_eq, Checked.access_some_bind, RawRecord.decode]
  dsimp only
  split
  · rfl
  · have hdata : (((splitFields r.body.toList).zip schema.columns).mapM
        fun (field, column) => namedValue field column) =
        Checked.result (((splitFields r.body.toList).zip schema.columns).mapM
          fun (field, column) => decodeField field column) := by
      simp only [namedValue_eq]
      exact Checked.mapM_result _ _
    rw [hdata, Checked.adapt_result]
    cases ((splitFields r.body.toList).zip schema.columns).mapM
      fun (field, column) => decodeField field column <;> rfl

/-! ## Headers -/

/-- The walk finds the header of a text, which it cuts out between the brackets. -/
theorem header_eq (text : List Char) : header text = Checked.result (Header.decodeChars text) := by
  by_cases hopen : ∃ rest, text = '[' :: rest
  · obtain ⟨rest, rfl⟩ := hopen
    have hone : ('[').utf8Size = 1 := by decide
    have hposition : Text.position? ']' ('[' :: rest) =
        (Text.cut? ']' rest).map fun parts => 1 + Text.utf8Length parts.1 := by
      rw [Text.position?, if_neg (by decide), Text.position?_eq_map_cut?, Option.map_map, hone]
      rfl
    rw [header, if_neg (by simp), hposition, Header.decodeChars]
    cases hcut : Text.cut? ']' rest with
    | none => rfl
    | some parts =>
      obtain ⟨body, after⟩ := parts
      have hat : At ('[' :: rest) 1 (body ++ ']' :: after) :=
        ⟨['['], congrArg ('[' :: ·) (Text.eq_append_of_cut? hcut), hone⟩
      simp only [Option.map_some, hat.slice?, Checked.access_some_bind]
      cases Header.decodeBody body with
      | error e => rfl
      | ok found =>
        have hlength : 1 + Text.utf8Length body + 1 = Text.utf8Length body + 2 := by omega
        simp only [Checked.result_ok_bind, hlength]
        rfl
  · have hhead : text.head? ≠ some '[' := by
      cases text with
      | nil => rintro ⟨⟩
      | cons c rest => exact fun h => hopen ⟨rest, congrArg (· :: rest) (Option.some.inj h)⟩
    rw [header, if_pos hhead, Header.decodeChars]
    · rfl
    · exact fun rest h => hopen ⟨rest, h⟩

end Walk

end RecordStore

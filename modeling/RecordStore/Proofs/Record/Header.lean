import RecordStore.Proofs.Name
import RecordStore.Proofs.Sequence
import RecordStore.Proofs.Text.Bytes
import RecordStore.Proofs.Text.Split
import RecordStore.Record.Header

/-!
# Which headers are read

A header is read up to its first closing bracket, so what follows does not matter. Names and codes
hold none of the characters that a header is made of, so a header can be cut in one way only. A code
has more spellings than the one that is written: there may be zeros before it, and a `+` before
these.

- `SpellsCode`, `SpellsColumn`, `Spells`: the spellings of a code, a column and a whole header, each
  with an equation that says that just these are read;
- `decodeChars_eq_ok_iff`: the headers that are read, `decodes_iff_spelled` with what that means;
- `exists_of_decodeChars`: a header is decoded the same before any records;
- `decodeChars_encodeChars`: the header of a table with a valid name and schema is read back.
-/

namespace RecordStore

/-- A byte is spelled with digits, and perhaps a `+` before them. -/
theorem Numeral.readByte?_eq_some_iff {cs : List Char} {n : Nat} :
    readByte? cs = some n ↔ ∃ digits, (cs = digits ∨ cs = '+' :: digits) ∧
      isNumeral digits = true ∧ valueOf digits = n ∧ n < 256 := by
  have hdigits : ∀ digits : List Char,
      (if isNumeral digits && decide (valueOf digits < 256) then some (valueOf digits) else none) =
        some n ↔ isNumeral digits = true ∧ valueOf digits = n ∧ n < 256 := by
    intro digits
    simp only [Option.ite_none_right_eq_some, Option.some.injEq, Bool.and_eq_true,
      decide_eq_true_eq]
    exact ⟨fun ⟨⟨hdigits, hlt⟩, h⟩ => ⟨hdigits, h, h ▸ hlt⟩,
      fun ⟨hdigits, h, hlt⟩ => ⟨⟨hdigits, h ▸ hlt⟩, h⟩⟩
  unfold readByte?
  split
  · next digits =>
    rw [hdigits]
    refine ⟨fun h => ⟨digits, .inr rfl, h⟩, ?_⟩
    rintro ⟨other, rfl | hother, h⟩
    · exact absurd h.1 (by simp [isNumeral])
    · cases hother
      exact h
  · next hplus =>
    rw [hdigits]
    refine ⟨fun h => ⟨cs, .inl rfl, h⟩, ?_⟩
    rintro ⟨digits, rfl | rfl, h⟩
    · exact h
    · exact absurd rfl (hplus digits)

theorem StorageType.ofCode?_eq_some_iff {n : Nat} {type : StorageType} :
    ofCode? n = some type ↔ n = type.code := by
  constructor
  · intro h
    unfold ofCode? at h
    split at h <;> cases h <;> rfl
  · rintro rfl
    exact ofCode?_code type

namespace Header

/-! ## One column -/

/-- The spellings of the code of a type: digits for its number, and perhaps a `+` before them. -/
def SpellsCode (code : List Char) (type : StorageType) : Prop :=
  ∃ digits, (code = digits ∨ code = '+' :: digits) ∧ Numeral.isNumeral digits = true ∧
    Numeral.valueOf digits = type.code

theorem decodeCode?_eq_some_iff {code : List Char} {type : StorageType} :
    decodeCode? code = some type ↔ SpellsCode code type := by
  rw [decodeCode?, Option.bind_eq_some_iff]
  constructor
  · rintro ⟨n, hread, hcode⟩
    obtain ⟨digits, hsign, hdigits, hvalue, -⟩ := Numeral.readByte?_eq_some_iff.1 hread
    exact ⟨digits, hsign, hdigits, hvalue.trans (StorageType.ofCode?_eq_some_iff.1 hcode)⟩
  · rintro ⟨digits, hsign, hdigits, hvalue⟩
    have hlt : type.code < 256 := by cases type <;> decide
    exact ⟨type.code, Numeral.readByte?_eq_some_iff.2 ⟨digits, hsign, hdigits, hvalue, hlt⟩,
      StorageType.ofCode?_code type⟩

theorem spellsCode_writeNat (type : StorageType) :
    SpellsCode (Numeral.writeNat type.code) type :=
  ⟨_, .inl rfl, Numeral.isNumeral_writeNat _, Numeral.valueOf_writeNat _⟩

/-- Codes are free of the characters that names must not have. -/
theorem SpellsCode.notMem {code : List Char} {type : StorageType} (h : SpellsCode code type)
    {c : Char} (hc : c ∈ Name.reserved) : c ∉ code := by
  obtain ⟨digits, hsign, hdigits, -⟩ := h
  have hreserved : (Name.reserved.all fun c => !c.isDigit && c != '+') = true := by decide
  obtain ⟨hdigit, hplus⟩ : c.isDigit = false ∧ c ≠ '+' := by
    simpa using List.all_eq_true.1 hreserved c hc
  have hnot : c ∉ digits := by
    intro hmem
    simp only [Numeral.isNumeral, Bool.and_eq_true, List.all_eq_true] at hdigits
    rw [hdigits.2 c hmem] at hdigit
    cases hdigit
  rcases hsign with rfl | rfl
  · exact hnot
  · exact List.not_mem_cons_of_ne_of_not_mem hplus hnot

/-- The spellings of a column, after its comma: the code of its type and its name. -/
def SpellsColumn (part : List Char) (column : Column) : Prop :=
  ∃ code, part = code ++ ':' :: column.name.toList ∧ SpellsCode code column.type

theorem decodeColumn_eq_ok_iff {part : List Char} {column : Column} :
    decodeColumn part = .ok column ↔ SpellsColumn part column := by
  constructor
  · intro h
    unfold decodeColumn at h
    split at h
    · cases h
    · next code name hcut =>
      split at h
      · cases h
      · next type hcode =>
        cases h
        refine ⟨code, ?_, decodeCode?_eq_some_iff.1 hcode⟩
        rw [Text.eq_append_of_cut? hcut, String.toList_ofList]
  · rintro ⟨code, rfl, hcode⟩
    have hcolon : ':' ∉ code := hcode.notMem (by decide)
    rw [decodeColumn, Text.cut?_append hcolon]
    simp only [decodeCode?_eq_some_iff.2 hcode, String.ofList_toList]

/-- A colon apart, a column is free of the characters that names must not have. -/
theorem SpellsColumn.notMem {part : List Char} {column : Column} (h : SpellsColumn part column)
    (hname : Name.check column.name = .ok ()) {c : Char} (hc : c ∈ Name.reserved)
    (hcolon : c ≠ ':') : c ∉ part := by
  obtain ⟨code, rfl, hcode⟩ := h
  rw [List.mem_append, List.mem_cons]
  exact fun h => h.elim (hcode.notMem hc) fun h => h.elim hcolon (Name.notMem_of_check hname hc)

/-! ## The whole header -/

/-- The spellings of a header, between its brackets: a valid name and, each after a comma, the
columns of a valid schema. -/
def Spells (body : List Char) (name : String) (schema : Schema) : Prop :=
  Name.check name = .ok () ∧ schema.check = .ok () ∧
    ∃ parts, body = name.toList ++ parts.flatMap (',' :: ·) ∧
      List.Forall₂ SpellsColumn parts schema.columns

/-- What is read between the brackets is just what spells a header. -/
theorem decodeBody_eq_ok_iff {body : List Char} {name : String} {schema : Schema} :
    decodeBody body = .ok (name, schema) ↔ Spells body name schema := by
  have hcolumns : ∀ {parts : List (List Char)} {columns : List Column},
      parts.mapM decodeColumn = .ok columns ↔ List.Forall₂ SpellsColumn parts columns := by
    intro parts columns
    simp only [mapM_eq_ok_iff, decodeColumn_eq_ok_iff]
  constructor
  · intro h
    unfold decodeBody at h
    split at h
    · next hnil => exact absurd hnil (Text.splitOn_ne_nil ',' body)
    · next first parts hparts =>
      dsimp only at h
      split at h
      · cases h
      · next hname =>
        split at h
        · cases h
        · next columns hread =>
          split at h
          · cases h
          · next hschema =>
            cases h
            obtain ⟨hbody, -, -⟩ := Text.splitOn_eq_cons_iff.1 hparts
            refine ⟨hname, hschema, parts, ?_, hcolumns.1 hread⟩
            rw [String.toList_ofList]
            exact hbody
  · rintro ⟨hname, hschema, parts, rfl, hparts⟩
    -- a comma in the name or in a column would cut the header elsewhere
    have hcommas : ∀ part ∈ parts, ',' ∉ part := by
      intro part hpart
      obtain ⟨column, hcolumn, hspells⟩ := exists_of_mem_of_forall₂ hparts hpart
      exact hspells.notMem (Schema.name_of_check hschema column hcolumn) (by decide) (by decide)
    have hsplit := Text.splitOn_eq_cons_iff.2
      ⟨rfl, Name.notMem_of_check hname (c := ',') (by decide), hcommas⟩
    rw [decodeBody, hsplit]
    simp only [String.ofList_toList, hname, hcolumns.2 hparts, hschema]

/-- A header has no closing bracket but its last character. -/
theorem Spells.notMem {body : List Char} {name : String} {schema : Schema}
    (h : Spells body name schema) : ']' ∉ body := by
  obtain ⟨hname, hschema, parts, rfl, hparts⟩ := h
  rw [List.mem_append, List.mem_flatMap]
  rintro (hmem | ⟨part, hpart, hmem⟩)
  · exact Name.notMem_of_check hname (by decide) hmem
  · obtain ⟨column, hcolumn, hspells⟩ := exists_of_mem_of_forall₂ hparts hpart
    rcases List.mem_cons.1 hmem with hmem | hmem
    · exact absurd hmem (by decide)
    · exact hspells.notMem (Schema.name_of_check hschema column hcolumn) (by decide) (by decide)
        hmem

theorem utf8Length_brackets (body : List Char) :
    Text.utf8Length ('[' :: body ++ [']']) = Text.utf8Length body + 2 := by
  have hopen : ('[').utf8Size = 1 := by decide
  have hclose : (']').utf8Size = 1 := by decide
  simp only [List.cons_append, Text.utf8Length_cons, Text.utf8Length_append, Text.utf8Length_nil,
    hopen, hclose]
  omega

/-- The headers that are read, before any text. -/
theorem decodeChars_eq_ok_iff {cs : List Char} {header : Header} :
    decodeChars cs = .ok header ↔
      ∃ body rest, cs = '[' :: body ++ [']'] ++ rest ∧ Spells body header.name header.schema ∧
        header.length = Text.utf8Length ('[' :: body ++ [']']) := by
  constructor
  · intro h
    unfold decodeChars at h
    split at h
    · next text =>
      split at h
      · cases h
      · next body rest hcut =>
        cases hbody : decodeBody body with
        | error e =>
          rw [hbody] at h
          cases h
        | ok p =>
          rw [hbody] at h
          cases h
          refine ⟨body, rest, ?_, decodeBody_eq_ok_iff.1 hbody, (utf8Length_brackets body).symm⟩
          rw [Text.eq_append_of_cut? hcut]
          simp
    · cases h
  · rintro ⟨body, rest, rfl, hspells, hlength⟩
    have htext : '[' :: body ++ [']'] ++ rest = '[' :: (body ++ ']' :: rest) := by simp
    rw [htext, decodeChars, Text.cut?_append hspells.notMem]
    simp only [decodeBody_eq_ok_iff.2 hspells]
    rw [← utf8Length_brackets, ← hlength]
    rfl

/-- A header ends at its first closing bracket: the same header is read before any other text. -/
theorem exists_of_decodeChars {cs : List Char} {header : Header} (h : decodeChars cs = .ok header) :
    ∃ head tail, cs = head ++ tail ∧ Text.utf8Length head = header.length ∧
      ∀ tail, decodeChars (head ++ tail) = .ok header := by
  obtain ⟨body, rest, hcs, hspells, hlength⟩ := decodeChars_eq_ok_iff.1 h
  exact ⟨'[' :: body ++ [']'], rest, hcs, hlength.symm,
    fun tail => decodeChars_eq_ok_iff.2 ⟨body, tail, rfl, hspells, hlength⟩⟩

/-! ## What is written -/

/-- The header that is written is one of the spellings. -/
theorem spells_encode {name : String} {schema : Schema} (hname : Name.check name = .ok ())
    (hschema : schema.check = .ok ()) :
    Spells (name.toList ++ schema.columns.flatMap encodeColumn) name schema := by
  refine ⟨hname, hschema,
    schema.columns.map fun c => Numeral.writeNat c.type.code ++ ':' :: c.name.toList, ?_, ?_⟩
  · rw [List.flatMap_map]
    rfl
  · rw [List.forall₂_map_left_iff, List.forall₂_same]
    exact fun column _ => ⟨_, rfl, spellsCode_writeNat column.type⟩

/-- The header of a table with a valid name and schema is read back, whatever follows it. -/
theorem decodeChars_encodeChars {name : String} {schema : Schema}
    (hname : Name.check name = .ok ()) (hschema : schema.check = .ok ()) (rest : List Char) :
    decodeChars (encodeChars name schema ++ rest) =
      .ok { name, schema, length := Text.utf8Length (encodeChars name schema) } :=
  decodeChars_eq_ok_iff.2 ⟨_, rest, rfl, spells_encode hname hschema, rfl⟩

/-! ## Main result -/

/-- Exactly the well-formed headers are read: an opening bracket, a valid name, the columns of a
valid schema, each after a comma and with any spelling of its code, and the first closing bracket.
The header ends with the byte of that bracket. Among them is the header that is written for a table,
whatever text follows it. -/
theorem decodes_iff_spelled :
    (∀ (text : String) (header : Header),
      decode text = .ok header ↔
        ∃ body rest, text.toList = '[' :: body ++ [']'] ++ rest ∧ ']' ∉ body ∧
          (∃ parts, body = header.name.toList ++ parts.flatMap (',' :: ·) ∧
            List.Forall₂ SpellsColumn parts header.schema.columns) ∧
          Name.check header.name = .ok () ∧
          header.schema.columns ≠ [] ∧
          (∀ column ∈ header.schema.columns, Name.check column.name = .ok ()) ∧
          (header.schema.columns.map (·.name)).Nodup ∧
          header.length = (String.ofList ('[' :: body ++ [']'])).utf8ByteSize) ∧
    ∀ (name : String) (schema : Schema) (rest : String),
      Name.check name = .ok () → schema.check = .ok () →
        decode (encode name schema ++ rest) =
          .ok { name, schema, length := (encode name schema).utf8ByteSize } := by
  have hsize : ∀ cs : List Char, (String.ofList cs).utf8ByteSize = Text.utf8Length cs := by
    intro cs
    rw [← Text.utf8Length_toList, String.toList_ofList]
  refine ⟨?_, ?_⟩
  · intro text header
    rw [decode, decodeChars_eq_ok_iff]
    constructor
    · rintro ⟨body, rest, htext, hspells, hlength⟩
      have hnot := hspells.notMem
      obtain ⟨hname, hschema, hparts⟩ := hspells
      obtain ⟨hne, hnames, hnodup⟩ := Schema.check_eq_ok_iff.1 hschema
      exact ⟨body, rest, htext, hnot, hparts, hname, hne, hnames, hnodup, by rw [hsize, hlength]⟩
    · rintro ⟨body, rest, htext, -, hparts, hname, hne, hnames, hnodup, hlength⟩
      have hschema := Schema.check_eq_ok_iff.2 ⟨hne, hnames, hnodup⟩
      exact ⟨body, rest, htext, ⟨hname, hschema, hparts⟩, by rw [hlength, hsize]⟩
  · intro name schema rest hname hschema
    rw [decode, String.toList_append, encode, String.toList_ofList, hsize]
    exact decodeChars_encodeChars hname hschema rest.toList

/-- A header that nobody writes, with zeros and a sign before its codes and a name of two bytes, is
read before a record; the header that is written in its place takes three bytes less. -/
theorem decodes_iff_spelled_hand_written :
    Name.check "T" = .ok () ∧
      Schema.check ⟨[⟨"é", .integer⟩, ⟨"b", .string⟩]⟩ = .ok () ∧
      decode "[T,+00:é,02:b]{1;I:5,S:x}" =
        .ok ⟨"T", ⟨[⟨"é", .integer⟩, ⟨"b", .string⟩]⟩, 15⟩ ∧
      decode (encode "T" ⟨[⟨"é", .integer⟩, ⟨"b", .string⟩]⟩ ++ "{1;I:5,S:x}") =
        .ok ⟨"T", ⟨[⟨"é", .integer⟩, ⟨"b", .string⟩]⟩, 12⟩ := by
  have hname : Name.check "T" = .ok () := by decide
  have hschema : Schema.check ⟨[⟨"é", .integer⟩, ⟨"b", .string⟩]⟩ = .ok () := by decide
  obtain ⟨hread, hwritten⟩ := decodes_iff_spelled
  refine ⟨hname, hschema, (hread _ _).2 ?_, ?_⟩
  · obtain ⟨hne, hnames, hnodup⟩ := Schema.check_eq_ok_iff.1 hschema
    have hinteger : SpellsCode "+00".toList .integer := ⟨['0', '0'], .inr rfl, by decide, by decide⟩
    have hstring : SpellsCode "02".toList .string := ⟨['0', '2'], .inl rfl, by decide, by decide⟩
    refine ⟨"T,+00:é,02:b".toList, "{1;I:5,S:x}".toList, by decide, by decide,
      ⟨["+00:é".toList, "02:b".toList], by decide, ?_⟩, hname, hne, hnames, hnodup, by decide⟩
    exact .cons ⟨_, by decide, hinteger⟩ (.cons ⟨_, by decide, hstring⟩ .nil)
  · exact hwritten "T" _ "{1;I:5,S:x}" hname hschema

end Header

end RecordStore

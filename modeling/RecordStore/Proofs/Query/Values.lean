import RecordStore.Proofs.Decimal.Spelling
import RecordStore.Proofs.Name
import RecordStore.Proofs.Query.Batch

/-!
# Names and values in a query

A name is written as it is, a number by its own text and a string between quotes. Written so, each
stands for itself wherever a query may hold it: the cut into statements leaves its text in one
piece, the lexer takes it for one token, and a value is read back as what it was in a column of its
type.

- `whole_of_check`: the cut leaves a name in one piece;
- `Value.literal`, `Value.spelling`: the literal of a value and its text;
- `Value.IsSpellable`: finite decimals, and strings without one of the two quotes;
- `coerce?_literal`: the value is read back;
- `isListed_literal`, `whole_spelling`: its text stands for itself.
-/

namespace RecordStore

open Numeral (IsPointed isNumberChar)

/-! ## Names -/

/-- No statement ends in a name and no quote opens there. -/
theorem whole_of_check {name : String} (h : Name.check name = .ok ()) : Whole name.toList := by
  apply whole_of_plain
  intro c hc
  have hline : c ≠ '\n' := by
    rintro rfl
    cases Name.isBlank_of_check h hc
  have hends : QuerySet.endsStatement c = false := by
    simp [QuerySet.endsStatement, hline, Name.ne_of_check h hc (d := ';') (by decide)]
  exact isPlain_iff.2 ⟨Name.isQuote_of_check h hc, hends⟩

/-! ## Spellings -/

/-- The literal that a value is spelled with. -/
def Value.literal : Value → Literal
  | .int n => .bare (Value.int n).text
  | .dec x => .bare (Value.dec x).text
  | .str s => .ofQuoted s

/-- The text of a value in a query: a number as it is printed, a string between quotes. -/
def Value.spelling : Value → String
  | .int n => (Value.int n).text
  | .dec x => (Value.dec x).text
  | .str s => (Literal.ofQuoted s).render

/-- Whether a value has a spelling: a decimal that is finite, or a string that one of the two quotes
can be put around. Every integer has one. -/
def Value.IsSpellable : Value → Prop
  | .int _ => True
  | .dec x => x.isFinite = true
  | .str s => IsQuotable s

instance : DecidablePred Value.IsSpellable
  | .int _ => .isTrue trivial
  | .dec x => inferInstanceAs (Decidable (x.isFinite = true))
  | .str s => inferInstanceAs (Decidable (IsQuotable s))

theorem Value.render_literal (v : Value) : v.literal.render = v.spelling := by
  cases v <;> rfl

/-! ## The type of a spelling -/

namespace Literal

/-- A text that starts with a digit has no sign. -/
theorem unsigned_of_head {cs : List Char} (h : ∀ c ∈ cs.head?, c.isDigit = true) :
    unsigned cs = cs := by
  unfold unsigned
  split
  · cases h '-' rfl
  · rfl

theorem isInteger_writeInt (n : Int) : isInteger (Numeral.writeInt n) = true := by
  cases n with
  | ofNat n =>
    have hunsigned : unsigned (Numeral.writeNat n) = Numeral.writeNat n :=
      unsigned_of_head fun c hc => Numeral.isDigit_of_mem_writeNat (List.mem_of_head? hc)
    show Numeral.isNumeral (unsigned (Numeral.writeNat n)) = true
    rw [hunsigned, Numeral.isNumeral_writeNat]
  | negSucc n => exact Numeral.isNumeral_writeNat (n + 1)

theorem unsigned_of_isPointed {cs : List Char} (h : IsPointed cs) : unsigned cs = cs := by
  obtain ⟨whole, fraction, rfl, hne, hwhole, -⟩ := h
  apply unsigned_of_head
  intro c hc
  rw [List.head?_append_of_ne_nil _ hne] at hc
  exact hwhole c (List.mem_of_head? hc)

theorem unsigned_writeDecimal {x : Float} (h : x.isFinite = true) :
    unsigned (Numeral.writeDecimal x) = Numeral.writeMagnitude x := by
  rw [Numeral.writeDecimal_of_isFinite h]
  split
  · rfl
  · exact unsigned_of_isPointed (Numeral.isPointed_writeMagnitude x)

/-- The point keeps a decimal from being taken for an integer. -/
theorem isInteger_writeDecimal {x : Float} (h : x.isFinite = true) :
    isInteger (Numeral.writeDecimal x) = false := by
  obtain ⟨whole, fraction, hchars, -⟩ := Numeral.isPointed_writeMagnitude x
  have hpoint : ('.').isDigit = false := by decide
  rw [isInteger, unsigned_writeDecimal h, hchars]
  simp [Numeral.isNumeral, hpoint]

theorem isDecimal_writeDecimal {x : Float} (h : x.isFinite = true) :
    isDecimal (Numeral.writeDecimal x) = true := by
  obtain ⟨whole, fraction, hchars, hne, hwhole, hfraction⟩ := Numeral.isPointed_writeMagnitude x
  have hnoPoint : ∀ cs : List Char, (∀ c ∈ cs, c.isDigit = true) → cs.count '.' = 0 := by
    intro cs hcs
    refine List.count_eq_zero.2 fun hmem => ?_
    cases hcs '.' hmem
  obtain ⟨c, tail, rfl⟩ := List.exists_cons_of_ne_nil hne
  have hc := hwhole c List.mem_cons_self
  have hcount : ((c :: tail) ++ '.' :: fraction).count '.' = 1 := by
    rw [List.count_append, List.count_cons_self, hnoPoint _ hwhole, hnoPoint _ hfraction]
  have hall : ((c :: tail) ++ '.' :: fraction).all (fun c => c.isDigit || c == '.') = true := by
    rw [List.all_eq_true]
    intro d hd
    rcases List.mem_append.1 hd with hd | hd
    · rw [hwhole d hd, Bool.true_or]
    · rcases List.mem_cons.1 hd with rfl | hd
      · rfl
      · rw [hfraction d hd, Bool.true_or]
  have hany : ((c :: tail) ++ '.' :: fraction).any Char.isDigit = true :=
    List.any_eq_true.2 ⟨c, List.mem_cons_self, hc⟩
  rw [isDecimal, unsigned_writeDecimal h, hchars, hall, hcount, hany]
  rfl

end Literal

namespace Value

/-- The spelling of a value has the type of the value. -/
theorem classify_literal {v : Value} (h : v.IsSpellable) : v.literal.classify = v.storageType := by
  cases v with
  | int n =>
    have hinteger := Literal.isInteger_writeInt n.toInt
    simp only [literal, text, Literal.bare, Literal.classify, String.toList_ofList,
      Numeral.writeInt64, hinteger, storageType, Bool.false_eq_true, if_false, if_true]
  | dec x =>
    have hinteger := Literal.isInteger_writeDecimal h
    have hdecimal := Literal.isDecimal_writeDecimal h
    simp only [literal, text, Literal.bare, Literal.classify, String.toList_ofList, hinteger,
      hdecimal, storageType, Bool.false_eq_true, if_false, if_true]
  | str s => rfl

/-- A value is read back from its spelling in a column of its type. -/
theorem coerce?_literal {v : Value} (h : v.IsSpellable) :
    v.literal.coerce? v.storageType = some v := by
  unfold Literal.coerce?
  rw [classify_literal h, if_neg (not_not.2 rfl)]
  cases v with
  | int n =>
    show (Numeral.readInt64? (String.ofList (Numeral.writeInt64 n)).toList).map Value.int = _
    rw [String.toList_ofList, Numeral.readInt64?_writeInt64]
    rfl
  | dec x =>
    have hread := Numeral.readDecimal?_writeDecimal x
    have hfinite : x.isFinite = true := h
    show (Numeral.readDecimal? (String.ofList (Numeral.writeDecimal x)).toList).bind _ = _
    rw [String.toList_ofList, hread, Option.bind_some, if_pos hfinite]
  | str s => rfl

/-! ## The text of a spelling -/

/-- The text of a value that is no string has the characters of numbers. -/
theorem isNumberChar_of_mem_text {v : Value} (h : v.IsSpellable) (hv : v.storageType ≠ .string) :
    ∀ c ∈ v.text.toList, isNumberChar c = true := by
  intro c hc
  cases v with
  | int n =>
    rw [text, String.toList_ofList] at hc
    exact Numeral.isNumberChar_of_mem_writeInt hc
  | dec x =>
    rw [text, String.toList_ofList] at hc
    exact Numeral.isNumberChar_of_mem_writeDecimal h hc
  | str s => exact absurd rfl hv

theorem text_ne_nil {v : Value} (h : v.IsSpellable) (hv : v.storageType ≠ .string) :
    v.text.toList ≠ [] := by
  cases v with
  | int n =>
    rw [text, String.toList_ofList]
    intro hnil
    have hread := Numeral.readInt64?_writeInt64 n
    rw [hnil] at hread
    cases hread
  | dec x =>
    rw [text, String.toList_ofList]
    intro hnil
    have hread := Numeral.readDecimal?_writeDecimal x
    rw [hnil] at hread
    cases hread
  | str s => exact absurd rfl hv

end Value

/-- Characters of numbers make a bare value. -/
theorem isValue_of_isNumberChar {text : String} (hne : text.toList ≠ [])
    (h : ∀ c ∈ text.toList, isNumberChar c = true) : IsValue text := by
  have hplain : ∀ c ∈ text.toList, Text.isBlank c = false ∧ c ≠ '[' ∧
      Token.isQuote c = false ∧ c ≠ ',' ∧ c ≠ ']' := by
    intro c hc
    have := Numeral.of_isNumberChar (p := fun c => decide (Text.isBlank c = false ∧ c ≠ '[' ∧
      Token.isQuote c = false ∧ c ≠ ',' ∧ c ≠ ']')) (by decide) (h c hc)
    exact of_decide_eq_true this
  refine ⟨hne, ?_, ?_, ?_⟩
  · intro c hc
    exact (hplain c hc).2.2.2
  · intro c hc
    obtain ⟨hblank, hopen, hquote, -⟩ := hplain c (List.mem_of_head? hc)
    exact ⟨hblank, hopen, hquote⟩
  · intro c hc
    exact (hplain c (List.mem_of_getLast? hc)).1

namespace Value

/-- The spelling of a value stands for itself between brackets. -/
theorem isListed_literal {v : Value} (h : v.IsSpellable) : v.literal.IsListed := by
  cases v with
  | int n =>
    have hstring : (Value.int n).storageType ≠ .string := nofun
    exact isValue_of_isNumberChar (text_ne_nil h hstring) (isNumberChar_of_mem_text h hstring)
  | dec x =>
    have hstring : (Value.dec x).storageType ≠ .string := nofun
    exact isValue_of_isNumberChar (text_ne_nil h hstring) (isNumberChar_of_mem_text h hstring)
  | str s => exact h

/-- No value is spelled like a wildcard. -/
theorem isWildcard_literal {v : Value} (h : v.IsSpellable) : v.literal.isWildcard = false := by
  have hstar : v.storageType ≠ .string → v.text ≠ "*" := by
    intro hv heq
    have hchar := isNumberChar_of_mem_text h hv '*'
    rw [heq] at hchar
    cases hchar (by decide)
  cases v with
  | int n => exact beq_eq_false_iff_ne.2 (hstar nofun)
  | dec x => exact beq_eq_false_iff_ne.2 (hstar nofun)
  | str s => rfl

end Value

/-- A text between quotes is in one piece. -/
theorem whole_render_ofQuoted {text : String} (h : IsQuotable text) :
    Whole (Literal.ofQuoted text).render.toList := by
  rw [Literal.render]
  simp only [Literal.ofQuoted, Bool.not_true, Bool.false_eq_true, if_false, List.contains_iff_mem]
  split
  · next hsingle =>
    have hdouble : '"' ∉ text.toList := fun hmem => h ⟨hsingle, hmem⟩
    have hwhole := whole_quoted (q := '"') (by decide) hdouble
    simpa using hwhole
  · next hsingle =>
    have hwhole := whole_quoted (q := '\'') (by decide) hsingle
    simpa using hwhole

/-- The spelling of a value is in one piece, whatever characters the value has. -/
theorem Value.whole_spelling {v : Value} (h : v.IsSpellable) : Whole v.spelling.toList := by
  have hplain : v.storageType ≠ .string → ∀ c ∈ v.text.toList, isPlain c = true :=
    fun hv c hc => Numeral.of_isNumberChar (by decide) (isNumberChar_of_mem_text h hv c hc)
  cases v with
  | int n => exact whole_of_plain (hplain nofun)
  | dec x => exact whole_of_plain (hplain nofun)
  | str s => exact whole_render_ofQuoted h

end RecordStore

import RecordStore.Proofs.Query.Values

/-!
# What a literal denotes

The characters of a bare literal are those of an integer, those of a decimal, or others, and never
of two kinds. So a literal stands for a value of one type at most, and which value that is can be
said without a reader: by the number that its digits denote.

- `Numeral.Denotes`: digits and the number that they denote (`denotes_iff`);
- `Literal.SpellsInteger`, `Literal.SpellsDecimal`: an optional `-` and digits, and the same with a
  point (`spellsInteger_iff`, `spellsDecimal_iff`);
- `coerce?_integer_iff`, `coerce?_decimal_iff`, `coerce?_string_iff`: the three types;
- `coerce?_spelled`: all that a literal stands for.
-/

namespace RecordStore

/-! ## Digits -/

namespace Numeral

/-- Decimal digits, the most significant first, and the number that they denote. There may be zeros
in front of the others. -/
inductive Denotes : List Char → Nat → Prop where
  | digit {d : Nat} (hd : d < 10) : Denotes [Nat.digitChar d] d
  | more {cs : List Char} {n d : Nat} (hcs : Denotes cs n) (hd : d < 10) :
      Denotes (cs ++ [Nat.digitChar d]) (10 * n + d)

theorem valueOf_concat {d : Nat} (hd : d < 10) (cs : List Char) :
    valueOf (cs ++ [Nat.digitChar d]) = 10 * valueOf cs + d := by
  rw [valueOf, Nat.ofDigitChars_append, Nat.ofDigitChars_cons_digitChar_of_lt_ten hd,
    Nat.ofDigitChars_nil]
  rfl

theorem isNumeral_iff {cs : List Char} :
    isNumeral cs = true ↔ cs ≠ [] ∧ ∀ c ∈ cs, c.isDigit = true := by
  simp [isNumeral]

theorem exists_digitChar {c : Char} (h : c.isDigit = true) : ∃ d < 10, Nat.digitChar d = c := by
  obtain ⟨hle, hge⟩ : 48 ≤ c.toNat ∧ c.toNat ≤ 57 := by
    simpa [Char.isDigit, UInt32.le_iff_toNat_le] using h
  refine ⟨c.toNat - 48, by omega, Char.toNat_inj.1 ?_⟩
  rw [Nat.toNat_digitChar_of_lt_ten (by omega)]
  omega

/-- Every numeral denotes a number, and nothing else does. -/
theorem denotes_iff {cs : List Char} {n : Nat} :
    Denotes cs n ↔ isNumeral cs = true ∧ valueOf cs = n := by
  constructor
  · intro h
    induction h with
    | digit hd =>
      refine ⟨isNumeral_iff.2 ⟨List.cons_ne_nil _ _, ?_⟩,
        (valueOf_concat hd []).trans (Nat.zero_add _)⟩
      simp [Nat.isDigit_digitChar, hd]
    | @more cs n d _ hd ih =>
      obtain ⟨hcs, rfl⟩ := ih
      refine ⟨isNumeral_iff.2 ⟨by simp, List.forall_mem_append.2 ⟨(isNumeral_iff.1 hcs).2, ?_⟩⟩,
        valueOf_concat hd cs⟩
      simp [Nat.isDigit_digitChar, hd]
  · rintro ⟨h, rfl⟩
    -- the number grows with the digit at the end
    induction cs using List.reverseRecOn with
    | nil => cases h
    | append_singleton cs c ih =>
      obtain ⟨hcs, hc⟩ := List.forall_mem_append.1 (isNumeral_iff.1 h).2
      obtain ⟨d, hd, rfl⟩ := exists_digitChar (hc c (List.mem_singleton_self c))
      by_cases hnil : cs = []
      · subst hnil
        rw [(valueOf_concat hd []).trans (Nat.zero_add _)]
        exact .digit hd
      · rw [valueOf_concat hd]
        exact .more (ih (isNumeral_iff.2 ⟨hnil, hcs⟩)) hd

end Numeral

open Numeral (Denotes denotes_iff isNumeral isNumeral_iff valueOf nearest readInt? readInt64?
  readDecimal?)

namespace Literal

/-! ## Spellings of numbers -/

/-- An optional `-` and digits, and the integer that they denote. -/
inductive SpellsInteger : List Char → Int → Prop where
  | plain {cs : List Char} {n : Nat} (h : Denotes cs n) : SpellsInteger cs n
  | negative {cs : List Char} {n : Nat} (h : Denotes cs n) : SpellsInteger ('-' :: cs) (-n)

/-- An optional `-` and digits with a point before, among or after them, and the decimal that is
nearest to the number that they denote. -/
inductive SpellsDecimal : List Char → Float → Prop where
  | plain {whole fraction : List Char} {n : Nat} (h : Denotes (whole ++ fraction) n) :
      SpellsDecimal (whole ++ '.' :: fraction) (nearest n (-fraction.length))
  | negative {whole fraction : List Char} {n : Nat} (h : Denotes (whole ++ fraction) n) :
      SpellsDecimal ('-' :: (whole ++ '.' :: fraction)) (-nearest n (-fraction.length))

/-- Digits with one point before, among or after them. -/
def hasPoint (body : List Char) : Bool :=
  body.all (fun c => c.isDigit || c == '.') && body.count '.' == 1 && body.any Char.isDigit

theorem isDecimal_eq (cs : List Char) : isDecimal cs = hasPoint (unsigned cs) := rfl

theorem hasPoint_iff {body : List Char} :
    hasPoint body = true ↔
      ∃ whole fraction, body = whole ++ '.' :: fraction ∧ isNumeral (whole ++ fraction) = true := by
  have hpoint : ('.').isDigit = false := by decide
  simp only [hasPoint, Bool.and_eq_true, List.all_eq_true, List.any_eq_true, Bool.or_eq_true,
    beq_iff_eq, isNumeral_iff]
  constructor
  · rintro ⟨⟨hall, hcount⟩, d, hd, hdigit⟩
    have hmem : '.' ∈ body := List.count_pos_iff.1 (by omega)
    obtain ⟨whole, fraction, rfl, hwhole⟩ := List.eq_append_cons_of_mem hmem
    have hfraction : '.' ∉ fraction := by
      rw [List.count_append, List.count_cons_self, List.count_eq_zero.2 hwhole] at hcount
      exact List.count_eq_zero.1 (by omega)
    have hdigits : ∀ c ∈ whole ++ fraction, c.isDigit = true := by
      intro c hc
      have hc' : c ∈ whole ++ '.' :: fraction := by
        rw [List.mem_append, List.mem_cons]
        exact (List.mem_append.1 hc).imp_right .inr
      refine (hall c hc').resolve_right ?_
      rintro rfl
      exact (List.mem_append.1 hc).elim hwhole hfraction
    refine ⟨whole, fraction, rfl, ?_, hdigits⟩
    -- the digit is not the point, so it stands before or after it
    rintro hnil
    obtain ⟨rfl, rfl⟩ := List.append_eq_nil_iff.1 hnil
    rw [List.mem_singleton.1 hd, hpoint] at hdigit
    cases hdigit
  · rintro ⟨whole, fraction, rfl, hne, hdigits⟩
    obtain ⟨hwhole, hfraction⟩ := List.forall_mem_append.1 hdigits
    have hnone : ∀ cs : List Char, (∀ c ∈ cs, c.isDigit = true) → cs.count '.' = 0 := by
      intro cs hcs
      refine List.count_eq_zero.2 fun hmem => ?_
      cases hpoint.symm.trans (hcs '.' hmem)
    refine ⟨⟨?_, ?_⟩, ?_⟩
    · intro c hc
      rcases List.mem_append.1 hc with hc | hc
      · exact .inl (hwhole c hc)
      · exact (List.mem_cons.1 hc).symm.imp (hfraction c) id
    · rw [List.count_append, List.count_cons_self, hnone whole hwhole, hnone fraction hfraction]
    · obtain ⟨c, hc⟩ := List.exists_mem_of_ne_nil _ hne
      refine ⟨c, ?_, hdigits c hc⟩
      rw [List.mem_append, List.mem_cons]
      exact (List.mem_append.1 hc).imp_right .inr

/-- A text has a sign before its other characters, or none. -/
theorem unsigned_cases (cs : List Char) :
    (∃ body, cs = '-' :: body ∧ unsigned cs = body) ∨ unsigned cs = cs := by
  unfold unsigned
  split
  · next body => exact .inl ⟨body, rfl, rfl⟩
  · exact .inr rfl

theorem unsigned_of_isDigit {cs : List Char} (h : ∀ c ∈ cs, c.isDigit = true) :
    unsigned cs = cs :=
  unsigned_of_head fun c hc => h c (List.mem_of_head? hc)

theorem unsigned_pointed {whole : List Char} (h : ∀ c ∈ whole, c.isDigit = true)
    (fraction : List Char) : unsigned (whole ++ '.' :: fraction) = whole ++ '.' :: fraction := by
  cases whole with
  | nil => rfl
  | cons c whole =>
    refine unsigned_of_head fun d hd => ?_
    cases hd
    exact h c List.mem_cons_self

theorem SpellsInteger.read {cs : List Char} {n : Int} (h : SpellsInteger cs n) :
    isInteger cs = true ∧ readInt? cs = some n := by
  obtain ⟨h⟩ | ⟨h⟩ := h
  all_goals obtain ⟨hnumeral, rfl⟩ := denotes_iff.1 h
  · rw [isInteger, unsigned_of_isDigit (isNumeral_iff.1 hnumeral).2]
    exact ⟨hnumeral, Numeral.readInt?_of_isNumeral hnumeral⟩
  · exact ⟨hnumeral, if_pos hnumeral⟩

theorem exists_spellsInteger_iff {cs : List Char} :
    (∃ n, SpellsInteger cs n) ↔ isInteger cs = true := by
  constructor
  · rintro ⟨n, h⟩
    exact h.read.1
  · intro h
    obtain ⟨body, rfl, hbody⟩ | hbody := unsigned_cases cs <;> rw [isInteger, hbody] at h
    · exact ⟨_, .negative (denotes_iff.2 ⟨h, rfl⟩)⟩
    · exact ⟨_, .plain (denotes_iff.2 ⟨h, rfl⟩)⟩

/-- A text is an integer exactly if it spells one, which is the one that is read. -/
theorem spellsInteger_iff {cs : List Char} {n : Int} :
    SpellsInteger cs n ↔ isInteger cs = true ∧ readInt? cs = some n := by
  constructor
  · exact SpellsInteger.read
  · rintro ⟨h, hread⟩
    obtain ⟨m, hm⟩ := exists_spellsInteger_iff.2 h
    cases hm.read.2.symm.trans hread
    exact hm

/-- Digits around a point are read as the decimal nearest to their number. -/
theorem readMagnitude?_pointed {whole fraction : List Char}
    (h : isNumeral (whole ++ fraction) = true) :
    Numeral.readMagnitude? (whole ++ '.' :: fraction) =
      some (nearest (valueOf (whole ++ fraction)) (-fraction.length)) := by
  obtain ⟨hne, hdigits⟩ := isNumeral_iff.1 h
  obtain ⟨hwhole, hfraction⟩ := List.forall_mem_append.1 hdigits
  rw [Numeral.readMagnitude?, Numeral.readUnsigned?_point whole fraction hne hwhole hfraction,
    Int.zero_sub]
  rfl

theorem SpellsDecimal.read {cs : List Char} {x : Float} (h : SpellsDecimal cs x) :
    isDecimal cs = true ∧ readDecimal? cs = some x := by
  obtain @⟨whole, fraction, n, h⟩ | @⟨whole, fraction, n, h⟩ := h
  all_goals
    obtain ⟨hnumeral, rfl⟩ := denotes_iff.1 h
    have hpoint := hasPoint_iff.2 ⟨whole, fraction, rfl, hnumeral⟩
    have hread := readMagnitude?_pointed hnumeral
  · have hwhole := (List.forall_mem_append.1 (isNumeral_iff.1 hnumeral).2).1
    rw [isDecimal_eq, unsigned_pointed hwhole]
    exact ⟨hpoint, Numeral.readDecimal?_of_readMagnitude? hread⟩
  · refine ⟨hpoint, ?_⟩
    rw [readDecimal?, hread]
    rfl

theorem exists_spellsDecimal_iff {cs : List Char} :
    (∃ x, SpellsDecimal cs x) ↔ isDecimal cs = true := by
  constructor
  · rintro ⟨x, h⟩
    exact h.read.1
  · intro h
    rw [isDecimal_eq] at h
    obtain ⟨body, rfl, hbody⟩ | hbody := unsigned_cases cs
    all_goals
      rw [hbody] at h
      obtain ⟨whole, fraction, rfl, hnumeral⟩ := hasPoint_iff.1 h
    · exact ⟨_, .negative (denotes_iff.2 ⟨hnumeral, rfl⟩)⟩
    · exact ⟨_, .plain (denotes_iff.2 ⟨hnumeral, rfl⟩)⟩

/-- A text is a decimal exactly if it spells one, which is the one that is read. -/
theorem spellsDecimal_iff {cs : List Char} {x : Float} :
    SpellsDecimal cs x ↔ isDecimal cs = true ∧ readDecimal? cs = some x := by
  constructor
  · exact SpellsDecimal.read
  · rintro ⟨h, hread⟩
    obtain ⟨y, hy⟩ := exists_spellsDecimal_iff.2 h
    cases hy.read.2.symm.trans hread
    exact hy

/-! ## The type of a text -/

theorem classify_bare (text : String) :
    (bare text).classify = if isInteger text.toList then .integer
      else if isDecimal text.toList then .decimal else .string := rfl

theorem classify_of_coerce? {l : Literal} {type : StorageType} {v : Value}
    (h : l.coerce? type = some v) : l.classify = type := by
  by_contra hne
  unfold coerce? at h
  rw [if_pos hne] at h
  cases h

/-- A decimal has a point, which no integer has. -/
theorem isInteger_of_isDecimal {cs : List Char} (h : isDecimal cs = true) :
    isInteger cs = false := by
  rw [isDecimal_eq] at h
  obtain ⟨whole, fraction, hbody, -⟩ := hasPoint_iff.1 h
  have hpoint : ('.').isDigit = false := by decide
  rw [isInteger, hbody]
  simp [isNumeral, hpoint]

theorem classify_eq_integer_iff {text : String} :
    (bare text).classify = .integer ↔ isInteger text.toList = true := by
  rw [classify_bare]
  by_cases hinteger : isInteger text.toList = true
  · simp [hinteger]
  · by_cases hdecimal : isDecimal text.toList = true <;> simp [hinteger, hdecimal]

theorem classify_eq_decimal_iff {text : String} :
    (bare text).classify = .decimal ↔ isDecimal text.toList = true := by
  rw [classify_bare]
  by_cases hdecimal : isDecimal text.toList = true
  · simp [isInteger_of_isDecimal hdecimal, hdecimal]
  · by_cases hinteger : isInteger text.toList = true <;> simp [hinteger, hdecimal]

theorem classify_eq_string_iff {text : String} :
    (bare text).classify = .string ↔
      isInteger text.toList = false ∧ isDecimal text.toList = false := by
  rw [classify_bare]
  by_cases hinteger : isInteger text.toList = true
  · simp [hinteger]
  · by_cases hdecimal : isDecimal text.toList = true <;> simp [hinteger, hdecimal]

/-! ## The value of a text -/

theorem fitsInt64_iff {n : Int} : Numeral.fitsInt64 n = true ↔ -2 ^ 63 ≤ n ∧ n < 2 ^ 63 := by
  have hmin : Int64.minValue.toInt = -2 ^ 63 := by decide
  have hmax : Int64.maxValue.toInt = 2 ^ 63 - 1 := by decide
  simp only [Numeral.fitsInt64, Bool.and_eq_true, decide_eq_true_eq, hmin, hmax]
  omega

/-- A bare literal is an integer exactly if it spells one that has 64 bits. -/
theorem coerce?_integer_iff {text : String} {v : Value} :
    (bare text).coerce? .integer = some v ↔
      ∃ n : Int, SpellsInteger text.toList n ∧ -2 ^ 63 ≤ n ∧ n < 2 ^ 63 ∧
        v = .int (Int64.ofInt n) := by
  constructor
  · intro h
    have hinteger := classify_eq_integer_iff.1 (classify_of_coerce? h)
    rw [coerce?, if_neg (not_not.2 (classify_of_coerce? h))] at h
    obtain ⟨m, hm, rfl⟩ := Option.map_eq_some_iff.1 h
    obtain ⟨n, hread, hn⟩ := Option.bind_eq_some_iff.1 hm
    by_cases hfits : Numeral.fitsInt64 n = true
    · rw [if_pos hfits] at hn
      cases hn
      obtain ⟨hle, hlt⟩ := fitsInt64_iff.1 hfits
      exact ⟨n, spellsInteger_iff.2 ⟨hinteger, hread⟩, hle, hlt, rfl⟩
    · rw [if_neg hfits] at hn
      cases hn
  · rintro ⟨n, hspells, hle, hlt, rfl⟩
    obtain ⟨hinteger, hread⟩ := spellsInteger_iff.1 hspells
    have hclassify := classify_eq_integer_iff.2 hinteger
    have hread64 : readInt64? text.toList = some (Int64.ofInt n) := by
      rw [readInt64?, hread, Option.bind_some, if_pos (fitsInt64_iff.2 ⟨hle, hlt⟩)]
    rw [coerce?, if_neg (not_not.2 hclassify)]
    show (readInt64? text.toList).map Value.int = _
    rw [hread64, Option.map_some]

/-- A bare literal is a decimal exactly if it spells one that is finite. -/
theorem coerce?_decimal_iff {text : String} {v : Value} :
    (bare text).coerce? .decimal = some v ↔
      ∃ x, SpellsDecimal text.toList x ∧ x.isFinite = true ∧ v = .dec x := by
  constructor
  · intro h
    have hdecimal := classify_eq_decimal_iff.1 (classify_of_coerce? h)
    rw [coerce?, if_neg (not_not.2 (classify_of_coerce? h))] at h
    obtain ⟨x, hread, hx⟩ := Option.bind_eq_some_iff.1 h
    by_cases hfinite : x.isFinite = true
    · rw [if_pos hfinite] at hx
      cases hx
      exact ⟨x, spellsDecimal_iff.2 ⟨hdecimal, hread⟩, hfinite, rfl⟩
    · rw [if_neg hfinite] at hx
      cases hx
  · rintro ⟨x, hspells, hfinite, rfl⟩
    obtain ⟨hdecimal, hread⟩ := spellsDecimal_iff.1 hspells
    have hclassify := classify_eq_decimal_iff.2 hdecimal
    rw [coerce?, if_neg (not_not.2 hclassify)]
    show (readDecimal? text.toList).bind _ = _
    rw [hread, Option.bind_some, if_pos hfinite]

/-- A bare literal is a string exactly if it spells no number, in range or not. -/
theorem coerce?_string_iff {text : String} {v : Value} :
    (bare text).coerce? .string = some v ↔
      v = .str text ∧ (∀ n, ¬ SpellsInteger text.toList n) ∧
        ∀ x, ¬ SpellsDecimal text.toList x := by
  have hclassify : (bare text).classify = .string ↔
      (∀ n, ¬ SpellsInteger text.toList n) ∧ ∀ x, ¬ SpellsDecimal text.toList x := by
    rw [classify_eq_string_iff, ← not_exists, ← not_exists, exists_spellsInteger_iff,
      exists_spellsDecimal_iff, Bool.not_eq_true, Bool.not_eq_true]
  rw [← hclassify]
  constructor
  · intro h
    have hstring := classify_of_coerce? h
    rw [coerce?, if_neg (not_not.2 hstring)] at h
    cases h
    exact ⟨rfl, hstring⟩
  · rintro ⟨rfl, hstring⟩
    rw [coerce?, if_neg (not_not.2 hstring)]
    rfl

theorem coerce?_ofQuoted_iff {text : String} {type : StorageType} {v : Value} :
    (ofQuoted text).coerce? type = some v ↔ type = .string ∧ v = .str text := by
  constructor
  · intro h
    obtain rfl : StorageType.string = type := classify_of_coerce? h
    cases h
    exact ⟨rfl, rfl⟩
  · rintro ⟨rfl, rfl⟩
    rfl

/-- The text of an integer is a literal of that integer alone. -/
theorem coerce?_text_int_iff {n : Int64} {type : StorageType} {v : Value} :
    (bare (Value.int n).text).coerce? type = some v ↔ type = .integer ∧ v = .int n := by
  have hint : (bare (Value.int n).text).coerce? .integer = some (.int n) :=
    Value.coerce?_literal (v := .int n) trivial
  constructor
  · intro h
    obtain rfl : type = .integer := (classify_of_coerce? h).symm.trans (classify_of_coerce? hint)
    exact ⟨rfl, Option.some_inj.1 (h.symm.trans hint)⟩
  · rintro ⟨rfl, rfl⟩
    exact hint

/-- All that a literal stands for. A bare literal is an integer exactly if it is an optional `-` and
digits that denote one of 64 bits, a decimal exactly if there is one point among or around the
digits and they denote a finite one, and a string, its own text, exactly if it has neither form. A
quoted literal is only a string. No literal has values of two types, and the text of an integer is a
literal of that integer and of nothing else. -/
theorem coerce?_spelled :
    (∀ text v, (bare text).coerce? .integer = some v ↔
      ∃ n : Int, SpellsInteger text.toList n ∧ -2 ^ 63 ≤ n ∧ n < 2 ^ 63 ∧
        v = .int (Int64.ofInt n)) ∧
    (∀ text v, (bare text).coerce? .decimal = some v ↔
      ∃ x, SpellsDecimal text.toList x ∧ x.isFinite = true ∧ v = .dec x) ∧
    (∀ text v, (bare text).coerce? .string = some v ↔
      v = .str text ∧ (∀ n, ¬ SpellsInteger text.toList n) ∧
        ∀ x, ¬ SpellsDecimal text.toList x) ∧
    (∀ text type v, (ofQuoted text).coerce? type = some v ↔ type = .string ∧ v = .str text) ∧
    (∀ (l : Literal) type type' v v', l.coerce? type = some v → l.coerce? type' = some v' →
      type = type' ∧ v = v') ∧
    ∀ n type v, (bare (Value.int n).text).coerce? type = some v ↔
      type = .integer ∧ v = .int n := by
  refine ⟨fun _ _ => coerce?_integer_iff, fun _ _ => coerce?_decimal_iff,
    fun _ _ => coerce?_string_iff, fun _ _ _ => coerce?_ofQuoted_iff, ?_,
    fun _ _ _ => coerce?_text_int_iff⟩
  intro l type type' v v' h h'
  obtain rfl : type = type' := (classify_of_coerce? h).symm.trans (classify_of_coerce? h')
  exact ⟨rfl, Option.some_inj.1 (h.symm.trans h')⟩

/-- The smallest integer of 64 bits, the one below it, and a zero with a sign and another zero. -/
theorem coerce?_spelled_extremes :
    (bare "-9223372036854775808").coerce? .integer = some (.int Int64.minValue) ∧
      (∀ type v, (bare "-9223372036854775808").coerce? type = some v →
        type = .integer ∧ v = .int Int64.minValue) ∧
      (∀ type, (bare "-9223372036854775809").coerce? type = none) ∧
      (bare "-00").coerce? .integer = some (.int 0) := by
  obtain ⟨-, -, -, -, honly, -⟩ := coerce?_spelled
  have hmin : (bare "-9223372036854775808").coerce? .integer = some (.int Int64.minValue) := by
    decide
  refine ⟨hmin, fun type v h => honly _ _ _ _ _ h hmin, fun type => ?_, by decide⟩
  cases type <;> decide

end Literal

end RecordStore

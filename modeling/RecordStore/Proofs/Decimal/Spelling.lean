import RecordStore.Proofs.Decimal.RoundTrip

/-!
# What numbers are spelled with

The text of a finite number consists of digits, at most one point and perhaps a `-` at its start. So
no other format takes any of its characters for something else, and its point tells a decimal from
an integer.

- `isNumberChar`: the twelve characters in question (`of_isNumberChar`);
- `IsPointed`: digits on both sides of a point, which is what the magnitude of a finite decimal is
  spelled as (`isPointed_writeMagnitude`);
- `backslash_notMem_of_readInt?`, `backslash_notMem_of_readDecimal?`: many more texts are read as
  numbers than are written, but none with a backslash.
-/

namespace RecordStore.Numeral

/-! ## The characters -/

/-- Whether a character may be part of the text of a finite number. -/
def isNumberChar (c : Char) : Bool := c.isDigit || c == '.' || c == '-'

theorem mem_of_isDigit {c : Char} (h : c.isDigit = true) :
    c ∈ ['0', '1', '2', '3', '4', '5', '6', '7', '8', '9'] := by
  simp only [Char.isDigit, Bool.and_eq_true, decide_eq_true_eq, ge_iff_le,
    UInt32.le_iff_toNat_le] at h
  obtain ⟨hle, hge⟩ : 48 ≤ c.toNat ∧ c.toNat ≤ 57 := h
  rw [← Char.ofNat_toNat c]
  interval_cases c.toNat <;> decide

/-- What twelve characters are like, every character of a number is like. -/
theorem of_isNumberChar {p : Char → Bool}
    (hp : ['0', '1', '2', '3', '4', '5', '6', '7', '8', '9', '.', '-'].all p = true) {c : Char}
    (h : isNumberChar c = true) : p c = true := by
  refine List.all_eq_true.1 hp c ?_
  simp only [isNumberChar, Bool.or_eq_true, beq_iff_eq] at h
  rcases h with (h | rfl) | rfl
  · exact List.mem_append_left ['.', '-'] (mem_of_isDigit h)
  · decide
  · decide

theorem isNumberChar_of_isDigit {c : Char} (h : c.isDigit = true) : isNumberChar c = true := by
  simp [isNumberChar, h]

theorem isNumberChar_of_mem_writeInt {n : Int} {c : Char} (h : c ∈ writeInt n) :
    isNumberChar c = true := by
  cases n with
  | ofNat n => exact isNumberChar_of_isDigit (isDigit_of_mem_writeNat h)
  | negSucc n =>
    rcases List.mem_cons.1 h with rfl | h
    · rfl
    · exact isNumberChar_of_isDigit (isDigit_of_mem_writeNat h)

/-! ## Digits with a point -/

/-- Digits on both sides of a point, at least one before it. -/
def IsPointed (cs : List Char) : Prop :=
  ∃ whole fraction, cs = whole ++ '.' :: fraction ∧ whole ≠ [] ∧
    (∀ c ∈ whole, c.isDigit = true) ∧ ∀ c ∈ fraction, c.isDigit = true

theorem isPointed_positional (n : Scientific) : IsPointed (positional n) := by
  obtain ⟨digits, exponent⟩ := n
  have hne : writeNat digits ≠ [] := Nat.toDigits_ne_nil
  have hdigits : ∀ c ∈ writeNat digits, c.isDigit = true := fun c => isDigit_of_mem_writeNat
  have hzeros : ∀ k, ∀ c ∈ List.replicate k '0', c.isDigit = true :=
    fun k c => isDigit_of_mem_replicate
  unfold positional
  cases exponent with
  | ofNat zeros =>
    refine ⟨writeNat digits ++ List.replicate zeros '0', ['0'], rfl, by simp [hne], ?_,
      isDigit_of_mem_zero⟩
    exact List.forall_mem_append.2 ⟨hdigits, hzeros zeros⟩
  | negSucc n =>
    dsimp only
    split
    · next hlt =>
      refine ⟨_, _, rfl, ?_, ?_, ?_⟩
      · simp only [ne_eq, List.take_eq_nil_iff, hne, or_false]
        omega
      · exact fun c hc => hdigits c (List.mem_of_mem_take hc)
      · exact fun c hc => hdigits c (List.mem_of_mem_drop hc)
    · refine ⟨['0'], List.replicate (n + 1 - (writeNat digits).length) '0' ++ writeNat digits,
        by simp, List.cons_ne_nil _ _, isDigit_of_mem_zero, ?_⟩
      exact List.forall_mem_append.2 ⟨hzeros _, hdigits⟩

theorem isPointed_writeMagnitude (x : Float) : IsPointed (writeMagnitude x) := by
  unfold writeMagnitude
  split
  · exact ⟨['0'], ['0'], rfl, List.cons_ne_nil _ _, isDigit_of_mem_zero, isDigit_of_mem_zero⟩
  · exact isPointed_positional _

theorem IsPointed.isNumberChar {cs : List Char} (h : IsPointed cs) {c : Char} (hc : c ∈ cs) :
    isNumberChar c = true := by
  obtain ⟨whole, fraction, rfl, -, hwhole, hfraction⟩ := h
  rcases List.mem_append.1 hc with hc | hc
  · exact isNumberChar_of_isDigit (hwhole c hc)
  · rcases List.mem_cons.1 hc with rfl | hc
    · rfl
    · exact isNumberChar_of_isDigit (hfraction c hc)

/-- The text of a finite decimal, with or without a sign. -/
theorem writeDecimal_of_isFinite {x : Float} (h : x.isFinite = true) :
    writeDecimal x = if hasSign x then '-' :: writeMagnitude x else writeMagnitude x := by
  have hnan : ¬ x.isNaN = true := by
    intro hnan
    have hlt := (isFinite_iff x).1 h
    have hgt := (isNaN_iff x).1 hnan
    omega
  rw [writeDecimal, if_neg hnan, if_pos h]

theorem isNumberChar_of_mem_writeDecimal {x : Float} (hx : x.isFinite = true) {c : Char}
    (h : c ∈ writeDecimal x) : isNumberChar c = true := by
  have hmagnitude := isPointed_writeMagnitude x
  rw [writeDecimal_of_isFinite hx] at h
  split at h
  · rcases List.mem_cons.1 h with rfl | h
    · rfl
    · exact hmagnitude.isNumberChar h
  · exact hmagnitude.isNumberChar h

/-! ## What is read -/

theorem backslash_notMem_of_isDigit {cs : List Char} (h : ∀ c ∈ cs, c.isDigit = true) :
    '\\' ∉ cs := fun hmem => absurd (h _ hmem) (by decide)

/-- A text that is read as an integer has no backslash in it. -/
theorem backslash_notMem_of_readInt? {cs : List Char} {n : Int} (h : readInt? cs = some n) :
    '\\' ∉ cs := by
  have hnumeral : ∀ digits, isNumeral digits = true → '\\' ∉ digits := by
    intro digits h
    simp only [isNumeral, Bool.and_eq_true, List.all_eq_true] at h
    exact backslash_notMem_of_isDigit h.2
  unfold readInt? at h
  split at h
  all_goals
    split at h
    · next hdigits => simpa using hnumeral _ hdigits
    · cases h

theorem backslash_notMem_of_readExponent? {cs : List Char} {n : Int}
    (h : readExponent? cs = some n) : '\\' ∉ cs := by
  unfold readExponent? at h
  split at h
  · exact List.not_mem_nil
  · next c cs =>
    split at h
    · next hc =>
      refine List.not_mem_cons_of_ne_of_not_mem ?_ (backslash_notMem_of_readInt? h)
      rintro rfl
      cases hc
    · cases h

theorem backslash_notMem_of_readUnsigned? {cs : List Char} {x : Float}
    (h : readUnsigned? cs = some x) : '\\' ∉ cs := by
  have hsplit : ∀ cs : List Char, '\\' ∉ cs.dropWhile Char.isDigit → '\\' ∉ cs := by
    intro cs hrest hmem
    rw [← List.takeWhile_append_dropWhile (p := Char.isDigit) (l := cs), List.mem_append] at hmem
    exact hmem.elim (backslash_notMem_of_isDigit fun _ => List.mem_takeWhile_imp) hrest
  refine hsplit cs ?_
  unfold readUnsigned? at h
  dsimp only at h
  generalize cs.dropWhile Char.isDigit = rest at h ⊢
  -- behind the digits stands a point with more of them, or only an exponent
  split at h
  · next after =>
    split at h
    · cases h
    · obtain ⟨n, hn, -⟩ := Option.map_eq_some_iff.1 h
      refine List.not_mem_cons_of_ne_of_not_mem (by decide) (hsplit after ?_)
      exact backslash_notMem_of_readExponent? hn
  · split at h
    · cases h
    · obtain ⟨n, hn, -⟩ := Option.map_eq_some_iff.1 h
      exact backslash_notMem_of_readExponent? hn

theorem backslash_notMem_of_readMagnitude? {cs : List Char} {x : Float}
    (h : readMagnitude? cs = some x) : '\\' ∉ cs := by
  intro hmem
  have hnone : readUnsigned? cs = none := by
    cases hread : readUnsigned? cs with
    | none => rfl
    | some y => exact absurd hmem (backslash_notMem_of_readUnsigned? hread)
  -- a backslash stays in a text that is put into lower case, and is in none of the names
  have hlower : '\\' ∈ cs.map Char.toLower := List.mem_map_of_mem (f := Char.toLower) hmem
  have hname : ∀ name, '\\' ∉ name → cs.map Char.toLower ≠ name := by
    rintro name hname rfl
    exact hname hlower
  have hinf := hname "inf".toList (by decide)
  have hinfinity := hname "infinity".toList (by decide)
  have hnan := hname "nan".toList (by decide)
  unfold readMagnitude? at h
  rw [hnone, Option.none_or] at h
  dsimp only at h
  rw [decide_eq_false hinf, decide_eq_false hinfinity, Bool.or_false, if_neg Bool.false_ne_true,
    if_neg hnan] at h
  cases h

/-- A text that is read as a decimal has no backslash in it. -/
theorem backslash_notMem_of_readDecimal? {cs : List Char} {x : Float}
    (h : readDecimal? cs = some x) : '\\' ∉ cs := by
  unfold readDecimal? at h
  split at h
  · next cs =>
    obtain ⟨y, hy, -⟩ := Option.map_eq_some_iff.1 h
    exact List.not_mem_cons_of_ne_of_not_mem (by decide) (backslash_notMem_of_readMagnitude? hy)
  · next cs =>
    exact List.not_mem_cons_of_ne_of_not_mem (by decide) (backslash_notMem_of_readMagnitude? h)
  · exact backslash_notMem_of_readMagnitude? h

end RecordStore.Numeral

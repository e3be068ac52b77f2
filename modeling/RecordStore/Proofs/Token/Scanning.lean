import Mathlib
import RecordStore.Proofs.Text.Split
import RecordStore.Token.Lexer

/-!
# Scanning a text

What `scan` does with the token at the front of a text, one equation for each way in which a text
can start, and that the blanks around a text do not matter.

- `scan_blank`, `scan_open`, `scan_close`, `scan_comma`, `scan_quoted`, `scan_unclosed`,
  `scan_value`, `scan_word`: the equations;
- `Starts`, `Stops`: where a word or a bare value starts, and where a run of characters ends;
- `scan?_append_blanks`: blanks at the end add no token and change none;
- `tokenize_eq_ok_iff`: blanks around a text do not matter.
-/

namespace RecordStore

open Text (isBlank)
open Token (isQuote isSymbol inWord inValue scan)

/-! ## One token at the front -/

theorem isSymbol_of_isBlank {c : Char} (h : isBlank c = true) : isSymbol c = false := by
  rw [Bool.eq_false_iff]
  intro hs
  simp only [isSymbol, Bool.or_eq_true, beq_iff_eq] at hs
  rcases hs with (rfl | rfl) | rfl <;> exact absurd h (by decide)

theorem isBlank_of_isQuote {c : Char} (h : isQuote c = true) : isBlank c = false := by
  simp only [isQuote, Bool.or_eq_true, beq_iff_eq] at h
  rcases h with rfl | rfl <;> decide

theorem isSymbol_of_isQuote {c : Char} (h : isQuote c = true) : isSymbol c = false := by
  simp only [isQuote, Bool.or_eq_true, beq_iff_eq] at h
  rcases h with rfl | rfl <;> decide

theorem scan_blank {c : Char} (h : isBlank c = true) (depth : Nat) (cs : List Char) :
    scan depth (c :: cs) = scan depth cs := by
  rw [scan, if_pos h]

theorem scan_blanks {blanks : List Char} (h : ∀ c ∈ blanks, isBlank c = true) (depth : Nat)
    (cs : List Char) : scan depth (blanks ++ cs) = scan depth cs := by
  induction blanks with
  | nil => rfl
  | cons c blanks ih =>
    obtain ⟨hc, hblanks⟩ := List.forall_mem_cons.1 h
    rw [List.cons_append, scan_blank hc, ih hblanks]

theorem scan_open (depth : Nat) (cs : List Char) :
    scan depth ('[' :: cs) = (scan (depth + 1) cs).map (.leftBracket :: ·) := by
  rw [scan, if_neg (by decide), if_pos rfl]

theorem scan_close (depth : Nat) (cs : List Char) :
    scan depth (']' :: cs) = (scan (depth - 1) cs).map (.rightBracket :: ·) := by
  rw [scan, if_neg (by decide), if_neg (by decide), if_pos rfl]

theorem scan_comma (depth : Nat) (cs : List Char) :
    scan depth (',' :: cs) = (scan depth cs).map (.comma :: ·) := by
  rw [scan, if_neg (by decide), if_neg (by decide), if_neg (by decide), if_pos rfl]

/-- A character that is neither blank nor a token of its own. -/
theorem not_symbol_cases {c : Char} (h : isSymbol c = false) : c ≠ '[' ∧ c ≠ ']' ∧ c ≠ ',' := by
  simpa [isSymbol, and_assoc] using h

/-- A character that continues a word. -/
theorem inWord_iff {c : Char} :
    inWord c = true ↔ isBlank c = false ∧ c ≠ '[' ∧ c ≠ ']' ∧ c ≠ ',' := by
  simp [inWord, isSymbol, and_assoc]

theorem scan_quoted {q : Char} (hq : isQuote q = true) {text : List Char} (h : q ∉ text)
    (depth : Nat) (cs : List Char) :
    scan depth (q :: (text ++ q :: cs)) =
      (scan depth cs).map (.quoted (String.ofList text) :: ·) := by
  obtain ⟨hopen, hclose, hcomma⟩ := not_symbol_cases (isSymbol_of_isQuote hq)
  rw [scan, if_neg (Bool.eq_false_iff.1 (isBlank_of_isQuote hq)), if_neg hopen, if_neg hclose,
    if_neg hcomma, if_pos hq]
  split
  · next hcut =>
    rw [Text.cut?_append h] at hcut
    cases hcut
  · next hcut =>
    rw [Text.cut?_append h] at hcut
    cases hcut
    rfl

theorem scan_unclosed {q : Char} (hq : isQuote q = true) {text : List Char} (h : q ∉ text)
    (depth : Nat) : scan depth (q :: text) = .error (text.length + 1) := by
  obtain ⟨hopen, hclose, hcomma⟩ := not_symbol_cases (isSymbol_of_isQuote hq)
  rw [scan, if_neg (Bool.eq_false_iff.1 (isBlank_of_isQuote hq)), if_neg hopen, if_neg hclose,
    if_neg hcomma, if_pos hq]
  split
  · rfl
  · next hcut =>
    rw [Text.cut?_eq_none_iff.2 h] at hcut
    cases hcut

/-- The first character of a word or a bare value. -/
structure Starts (c : Char) : Prop where
  noBlank : isBlank c = false
  noSymbol : isSymbol c = false
  noQuote : isQuote c = false

theorem Starts.of_not {c : Char} (hblank : ¬ isBlank c = true) (hopen : c ≠ '[')
    (hclose : c ≠ ']') (hcomma : c ≠ ',') (hquote : ¬ isQuote c = true) : Starts c where
  noBlank := Bool.eq_false_iff.2 hblank
  noSymbol := by simp [isSymbol, hopen, hclose, hcomma]
  noQuote := Bool.eq_false_iff.2 hquote

/-- The text does not start with a character of this kind. -/
def Stops (p : Char → Bool) (cs : List Char) : Prop := ∀ c ∈ cs.head?, p c = false

theorem takeWhile_run {p : Char → Bool} {run after : List Char} (hrun : ∀ c ∈ run, p c = true)
    (hafter : Stops p after) :
    (run ++ after).takeWhile p = run ∧ (run ++ after).dropWhile p = after := by
  rw [List.takeWhile_append_of_pos hrun, List.dropWhile_append_of_pos hrun]
  cases after with
  | nil => simp
  | cons c after =>
    have hc : ¬ p c = true := Bool.eq_false_iff.1 (hafter c rfl)
    rw [List.takeWhile_cons_of_neg hc, List.dropWhile_cons_of_neg hc, List.append_nil]
    exact ⟨rfl, rfl⟩

theorem Stops.append {p : Char → Bool} {cs : List Char} (h : Stops p cs) (hne : cs ≠ [])
    (after : List Char) : Stops p (cs ++ after) := by
  intro c hc
  obtain ⟨x, rest, rfl⟩ := List.exists_cons_of_ne_nil hne
  exact h c hc

theorem forall_mem_takeWhile (p : Char → Bool) (cs : List Char) :
    ∀ c ∈ cs.takeWhile p, p c = true :=
  fun _ => List.mem_takeWhile_imp

theorem stops_dropWhile (p : Char → Bool) (cs : List Char) : Stops p (cs.dropWhile p) := by
  intro c hc
  have h := List.head?_dropWhile_not p cs
  rw [Option.mem_def.1 hc] at h
  simpa using h

theorem scan_value {c : Char} (h : Starts c) {depth : Nat} (hdepth : 0 < depth)
    {run after : List Char} (hrun : ∀ c ∈ run, inValue c = true) (hafter : Stops inValue after) :
    scan depth (c :: (run ++ after)) =
      (scan depth after).map (.word (String.ofList (Text.trimEnd (c :: run))) :: ·) := by
  obtain ⟨hopen, hclose, hcomma⟩ := not_symbol_cases h.noSymbol
  obtain ⟨htake, hdrop⟩ := takeWhile_run hrun hafter
  rw [scan, if_neg (Bool.eq_false_iff.1 h.noBlank), if_neg hopen, if_neg hclose, if_neg hcomma,
    if_neg (Bool.eq_false_iff.1 h.noQuote), if_pos hdepth]
  simp only [htake, hdrop]

theorem scan_word {c : Char} (h : Starts c) {run after : List Char}
    (hrun : ∀ c ∈ run, inWord c = true) (hafter : Stops inWord after) :
    scan 0 (c :: (run ++ after)) = (scan 0 after).map (Token.ofWord (c :: run) :: ·) := by
  obtain ⟨hopen, hclose, hcomma⟩ := not_symbol_cases h.noSymbol
  obtain ⟨htake, hdrop⟩ := takeWhile_run hrun hafter
  rw [scan, if_neg (Bool.eq_false_iff.1 h.noBlank), if_neg hopen, if_neg hclose, if_neg hcomma,
    if_neg (Bool.eq_false_iff.1 h.noQuote), if_neg (Nat.lt_irrefl 0), htake, hdrop]

/-! ## Blanks around a text -/

/-- What the lexer makes of a text, whatever it says where it fails. -/
def scan? (depth : Nat) (cs : List Char) : Option (List Token) := (scan depth cs).toOption

theorem scan?_eq_some_iff {depth : Nat} {cs : List Char} {ts : List Token} :
    scan? depth cs = some ts ↔ scan depth cs = .ok ts := by
  unfold scan?
  cases scan depth cs <;> simp [Except.toOption]

theorem toOption_map {ε α β : Type} (f : α → β) (x : Except ε α) :
    (x.map f).toOption = x.toOption.map f := by
  cases x <;> rfl

theorem inValue_of_isBlank {c : Char} (h : isBlank c = true) : inValue c = true := by
  obtain ⟨-, hclose, hcomma⟩ := not_symbol_cases (isSymbol_of_isBlank h)
  simp [inValue, hclose, hcomma]

theorem trimEnd_append_blank {b : Char} (hb : isBlank b = true) (cs : List Char) :
    Text.trimEnd (cs ++ [b]) = Text.trimEnd cs := by
  simp [Text.trimEnd, hb]

theorem scan?_value_blank {b c : Char} (hb : isBlank b = true) (hc : Starts c) {depth : Nat}
    (hdepth : 0 < depth) {run after : List Char} (hrun : ∀ c ∈ run, inValue c = true)
    (hafter : Stops inValue after) (h : scan? depth (after ++ [b]) = scan? depth after) :
    scan? depth (c :: (run ++ after) ++ [b]) =
      (scan? depth after).map (.word (String.ofList (Text.trimEnd (c :: run))) :: ·) := by
  rw [scan?, List.cons_append, List.append_assoc]
  cases after with
  | nil =>
    -- at the end of the text the blank belongs to the value, which is cut after its last letter
    have hrun' : ∀ x ∈ run ++ [b], inValue x = true :=
      List.forall_mem_append.2 ⟨hrun, List.forall_mem_singleton.2 (inValue_of_isBlank hb)⟩
    have := scan_value hc hdepth hrun' hafter
    rw [List.append_nil] at this
    rw [List.nil_append, this, toOption_map, ← List.cons_append, trimEnd_append_blank hb, scan?]
  | cons x rest =>
    rw [scan_value hc hdepth hrun (hafter.append (List.cons_ne_nil x rest) [b]), toOption_map,
      ← scan?, h]

theorem scan?_word_blank {b c : Char} (hb : isBlank b = true) (hc : Starts c)
    {run after : List Char} (hrun : ∀ c ∈ run, inWord c = true) (hafter : Stops inWord after)
    (h : scan? 0 (after ++ [b]) = scan? 0 after) :
    scan? 0 (c :: (run ++ after) ++ [b]) =
      (scan? 0 after).map (Token.ofWord (c :: run) :: ·) := by
  have hafter' : Stops inWord (after ++ [b]) := by
    cases after with
    | nil => exact fun x hx => by cases hx; simp [inWord, hb]
    | cons x rest => exact hafter.append (List.cons_ne_nil x rest) [b]
  rw [scan?, List.cons_append, List.append_assoc, scan_word hc hrun hafter', toOption_map,
    ← scan?, h]

theorem scan?_append_blank {b : Char} (hb : isBlank b = true) (depth : Nat) (cs : List Char) :
    scan? depth (cs ++ [b]) = scan? depth cs := by
  have hnil (depth : Nat) : scan? depth [b] = scan? depth [] := by
    rw [scan?, scan_blank hb, scan?]
  unfold scan? at hnil ⊢
  -- the blank stays behind what each step leaves, until a word or the end of the text meets it
  fun_induction scan depth cs with
  | case1 depth => rw [List.nil_append, hnil, scan]
  | case2 depth c cs hc ih => rw [List.cons_append, scan_blank hc, ih]
  | case3 depth cs hc ih => rw [List.cons_append, scan_open, toOption_map, toOption_map, ih]
  | case4 depth cs hc _ ih => rw [List.cons_append, scan_close, toOption_map, toOption_map, ih]
  | case5 depth cs hc _ _ ih => rw [List.cons_append, scan_comma, toOption_map, toOption_map, ih]
  | case6 depth c cs _ _ _ _ hq hcut =>
    have hc : c ∉ cs ++ [b] := by
      rw [List.mem_append, not_or, List.mem_singleton]
      refine ⟨Text.cut?_eq_none_iff.1 hcut, ?_⟩
      rintro rfl
      exact absurd hb (Bool.eq_false_iff.1 (isBlank_of_isQuote hq))
    rw [List.cons_append, scan_unclosed hq hc]
    rfl
  | case7 depth c cs _ _ _ _ hq text after hcut _ ih =>
    obtain ⟨rfl, htext⟩ := Text.cut?_eq_some_iff.1 hcut
    rw [List.cons_append, List.append_assoc, List.cons_append, scan_quoted hq htext,
      toOption_map, toOption_map, ih]
  | case8 depth c cs h₁ h₂ h₃ h₄ h₅ hdepth _ _ ih =>
    have := scan?_value_blank hb (.of_not h₁ h₂ h₃ h₄ h₅) hdepth
      (forall_mem_takeWhile inValue cs) (stops_dropWhile inValue cs) ih
    rw [List.takeWhile_append_dropWhile] at this
    rw [toOption_map]
    exact this
  | case9 depth c cs h₁ h₂ h₃ h₄ h₅ hdepth _ ih =>
    obtain rfl : depth = 0 := Nat.eq_zero_of_not_pos hdepth
    have := scan?_word_blank hb (.of_not h₁ h₂ h₃ h₄ h₅)
      (forall_mem_takeWhile inWord cs) (stops_dropWhile inWord cs) ih
    rw [List.takeWhile_append_dropWhile] at this
    rw [toOption_map]
    exact this

theorem scan?_append_blanks {blanks : List Char} (h : ∀ c ∈ blanks, isBlank c = true)
    (depth : Nat) (cs : List Char) : scan? depth (cs ++ blanks) = scan? depth cs := by
  induction blanks generalizing cs with
  | nil => rw [List.append_nil]
  | cons b blanks ih =>
    obtain ⟨hb, hblanks⟩ := List.forall_mem_cons.1 h
    rw [← List.singleton_append, ← List.append_assoc, ih hblanks, scan?_append_blank hb]

theorem scan?_trimEnd (depth : Nat) (cs : List Char) :
    scan? depth (Text.trimEnd cs) = scan? depth cs := by
  have hsplit : cs = Text.trimEnd cs ++ (cs.reverse.takeWhile isBlank).reverse := by
    rw [Text.trimEnd, ← List.reverse_append, List.takeWhile_append_dropWhile, List.reverse_reverse]
  rw [congrArg (scan? depth) hsplit]
  refine (scan?_append_blanks ?_ depth _).symm
  intro c hc
  exact forall_mem_takeWhile isBlank cs.reverse c (List.mem_reverse.1 hc)

theorem scan?_trimStart (depth : Nat) (cs : List Char) :
    scan? depth (Text.trimStart cs) = scan? depth cs := by
  have h := scan_blanks (forall_mem_takeWhile isBlank cs) depth (cs.dropWhile isBlank)
  rw [List.takeWhile_append_dropWhile] at h
  rw [scan?, scan?, h, Text.trimStart]

/-- A text has these tokens if the lexer finds them, the blanks around it included. -/
theorem tokenize_eq_ok_iff {text : String} {ts : List Token} :
    tokenize text = .ok ts ↔ scan 0 text.toList = .ok ts := by
  have h : scan? 0 (Text.trim text.toList) = scan? 0 text.toList := by
    rw [Text.trim, scan?_trimEnd, scan?_trimStart]
  rw [← scan?_eq_some_iff, ← h, scan?_eq_some_iff, tokenize]
  split
  · next hscan => simp [hscan]
  · next hscan => simp [hscan]

end RecordStore

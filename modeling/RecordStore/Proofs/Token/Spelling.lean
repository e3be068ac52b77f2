import RecordStore.Proofs.Sequence
import RecordStore.Proofs.Token.Scanning

/-!
# Texts and their tokens

What the lexer makes of a text depends on how many brackets are open. This file says which words,
bare values and quoted values stand for themselves, and that no other ones come out of the lexer.

- `IsWord`, `IsValue`, `IsQuotable`: the texts that can be a word outside brackets, a bare value
  between them, and a quoted value;
- `Lexes`: a text becomes certain tokens whatever follows;
- `Lexed`: what the tokens of a text are like (`lexed_of_scan`).
-/

namespace RecordStore

open Text (isBlank)
open Token (isQuote isSymbol inWord inValue scan)

/-! ## Texts that stand for themselves -/

/-- A word of the query language: not empty, without blanks, brackets and commas, no quote at its
start, and no keyword in letters of either case. -/
structure IsWord (w : String) : Prop where
  ne_nil : w.toList ≠ []
  plain : ∀ c ∈ w.toList, isBlank c = false ∧ c ≠ '[' ∧ c ≠ ']' ∧ c ≠ ','
  noQuote : ∀ c ∈ w.toList.head?, isQuote c = false
  noKeyword : ∀ k : Keyword, Text.upper w ≠ k.text

/-- A bare value between brackets: not empty, without commas and closing brackets, with no blank,
opening bracket or quote at its start, and no blank at its end. -/
structure IsValue (v : String) : Prop where
  ne_nil : v.toList ≠ []
  plain : ∀ c ∈ v.toList, c ≠ ',' ∧ c ≠ ']'
  start : ∀ c ∈ v.toList.head?, isBlank c = false ∧ c ≠ '[' ∧ isQuote c = false
  stop : ∀ c ∈ v.toList.getLast?, isBlank c = false

/-- A text that one of the two quotes can be put around. -/
def IsQuotable (text : String) : Prop := ¬ ('\'' ∈ text.toList ∧ '"' ∈ text.toList)

instance (text : String) : Decidable (IsQuotable text) := inferInstanceAs (Decidable (¬ (_ ∧ _)))

theorem ofWord?_eq_none_iff {w : String} :
    Keyword.ofWord? w = none ↔ ∀ k : Keyword, Text.upper w ≠ k.text := by
  simp only [Keyword.ofWord?, List.find?_eq_none, beq_iff_eq]
  exact ⟨fun h k hk => h k k.mem_all hk.symm, fun h k _ hk => h k hk.symm⟩

theorem ofWord?_eq_some_iff {w : String} {k : Keyword} :
    Keyword.ofWord? w = some k ↔ Text.upper w = k.text := by
  constructor
  · intro h
    have hk := List.find?_some h
    exact (beq_iff_eq.1 hk).symm
  · intro h
    rw [Keyword.ofWord?, h]
    cases k <;> decide

theorem IsWord.ofWord {w : String} (h : IsWord w) : Token.ofWord w.toList = .word w := by
  simp only [Token.ofWord, String.ofList_toList, ofWord?_eq_none_iff.2 h.noKeyword]

theorem IsWord.inWord {w : String} (h : IsWord w) : ∀ c ∈ w.toList, inWord c = true :=
  fun c hc => inWord_iff.2 (h.plain c hc)

theorem IsValue.inValue {v : String} (h : IsValue v) : ∀ c ∈ v.toList, inValue c = true := by
  intro c hc
  obtain ⟨hcomma, hclose⟩ := h.plain c hc
  simp [Token.inValue, hcomma, hclose]

theorem trimEnd_of_stop {cs : List Char} (h : ∀ c ∈ cs.getLast?, isBlank c = false) :
    Text.trimEnd cs = cs := by
  have hstops : Stops isBlank cs.reverse := by rwa [Stops, List.head?_reverse]
  have hdrop := (takeWhile_run (List.forall_mem_nil _) hstops).2
  rw [List.nil_append] at hdrop
  rw [Text.trimEnd, hdrop, List.reverse_reverse]

/-! ## Texts that become certain tokens -/

/-- With `depth` open brackets the text becomes the tokens, and leaves `left` brackets open,
whatever follows it. -/
def Lexes (depth : Nat) (cs : List Char) (ts : List Token) (left : Nat) : Prop :=
  ∀ rest, scan depth (cs ++ rest) = (scan left rest).map (ts ++ ·)

theorem map_map {ε α β γ : Type} (g : β → γ) (f : α → β) (x : Except ε α) :
    (x.map f).map g = x.map fun a => g (f a) := by
  cases x <;> rfl

theorem Lexes.append {d₁ d₂ d₃ : Nat} {cs₁ cs₂ : List Char} {ts₁ ts₂ : List Token}
    (h₁ : Lexes d₁ cs₁ ts₁ d₂) (h₂ : Lexes d₂ cs₂ ts₂ d₃) :
    Lexes d₁ (cs₁ ++ cs₂) (ts₁ ++ ts₂) d₃ := by
  intro rest
  rw [List.append_assoc, h₁, h₂, map_map]
  simp only [List.append_assoc]

theorem lexes_blanks {blanks : List Char} (h : ∀ c ∈ blanks, isBlank c = true) (depth : Nat) :
    Lexes depth blanks [] depth := by
  intro rest
  rw [scan_blanks h]
  cases scan depth rest <;> rfl

theorem lexes_open (depth : Nat) : Lexes depth ['['] [.leftBracket] (depth + 1) :=
  scan_open depth

theorem stops_blank {b : Char} (h : isBlank b = true) (cs : List Char) :
    Stops inWord (b :: cs) := by
  rintro c ⟨⟩
  simp [Token.inWord, h]

/-- A word ends at the blanks behind it, or at the end of the text. -/
theorem scan_ofWord {cs : List Char} (hne : cs ≠ []) (hplain : ∀ c ∈ cs, inWord c = true)
    (hquote : ∀ c ∈ cs.head?, isQuote c = false) {blanks after : List Char}
    (hblanks : ∀ c ∈ blanks, isBlank c = true) (hlast : blanks = [] → after = []) :
    scan 0 (cs ++ (blanks ++ after)) = (scan 0 after).map (Token.ofWord cs :: ·) := by
  obtain ⟨c, run, rfl⟩ := List.exists_cons_of_ne_nil hne
  obtain ⟨hc, hrun⟩ := List.forall_mem_cons.1 hplain
  simp only [inWord, Bool.and_eq_true, Bool.not_eq_true'] at hc
  have hstarts : Starts c := ⟨hc.1, hc.2, hquote c rfl⟩
  have hstops : Stops inWord (blanks ++ after) := by
    cases blanks with
    | nil =>
      rw [hlast rfl]
      intro c hc
      cases hc
    | cons b blanks => exact stops_blank (hblanks b List.mem_cons_self) (blanks ++ after)
  rw [List.cons_append, scan_word hstarts hrun hstops, scan_blanks hblanks]

theorem lexes_ofWord {cs : List Char} (hne : cs ≠ []) (hplain : ∀ c ∈ cs, inWord c = true)
    (hquote : ∀ c ∈ cs.head?, isQuote c = false) :
    Lexes 0 (cs ++ [' ']) [Token.ofWord cs] 0 := by
  intro rest
  have hspace : ∀ c ∈ [' '], isBlank c = true := List.forall_mem_singleton.2 (by decide)
  rw [List.append_assoc,
    scan_ofWord hne hplain hquote hspace fun h => absurd h (List.cons_ne_nil _ _)]
  rfl

/-- A word with a blank after it becomes that word. -/
theorem lexes_word {w : String} (h : IsWord w) : Lexes 0 (w.toList ++ [' ']) [.word w] 0 := by
  have := lexes_ofWord h.ne_nil h.inWord h.noQuote
  rwa [h.ofWord] at this

theorem inWord_keyword (k : Keyword) :
    ∀ c ∈ k.text.toList, inWord c = true ∧ isQuote c = false := by
  have h : k.text.toList.all (fun c => inWord c && !isQuote c) = true := by cases k <;> decide
  simpa using h

theorem keyword_ne_nil (k : Keyword) : k.text.toList ≠ [] := by cases k <;> decide

/-- A keyword in capital letters with a blank after it becomes that keyword. -/
theorem lexes_keyword (k : Keyword) : Lexes 0 (k.text.toList ++ [' ']) [.keyword k] 0 := by
  have hword : Token.ofWord k.text.toList = .keyword k := by
    simp only [Token.ofWord, String.ofList_toList, k.ofWord?_text]
  rw [← hword]
  refine lexes_ofWord (keyword_ne_nil k) (fun c hc => (inWord_keyword k c hc).1) ?_
  intro c hc
  exact (inWord_keyword k c (List.mem_of_mem_head? hc)).2

/-! ## The tokens of a text -/

/-- Tokens behind a bare value: it runs to a comma, a closing bracket or the end of the text. -/
def EndsValue (ts : List Token) : Prop :=
  ∀ t ∈ ts.head?, t = .comma ∨ t = .rightBracket ∨ t = .endOfInput

/-- What the tokens of a text are like, with `depth` open brackets at its start. -/
inductive Lexed : Nat → List Token → Prop where
  | endOfInput {depth : Nat} : Lexed depth [.endOfInput]
  | leftBracket {depth : Nat} {ts : List Token} (h : Lexed (depth + 1) ts) :
    Lexed depth (.leftBracket :: ts)
  | rightBracket {depth : Nat} {ts : List Token} (h : Lexed (depth - 1) ts) :
    Lexed depth (.rightBracket :: ts)
  | comma {depth : Nat} {ts : List Token} (h : Lexed depth ts) : Lexed depth (.comma :: ts)
  | quoted {depth : Nat} {text : String} {ts : List Token} (htext : IsQuotable text)
    (h : Lexed depth ts) : Lexed depth (.quoted text :: ts)
  | value {depth : Nat} {v : String} {ts : List Token} (hdepth : 0 < depth) (hv : IsValue v)
    (hends : EndsValue ts) (h : Lexed depth ts) : Lexed depth (.word v :: ts)
  | word {w : String} {ts : List Token} (hw : IsWord w) (h : Lexed 0 ts) : Lexed 0 (.word w :: ts)
  | keyword {k : Keyword} {ts : List Token} (h : Lexed 0 ts) : Lexed 0 (.keyword k :: ts)

theorem isQuotable_of_notMem {q : Char} (hq : isQuote q = true) {text : List Char}
    (h : q ∉ text) : IsQuotable (String.ofList text) := by
  simp only [isQuote, Bool.or_eq_true, beq_iff_eq] at hq
  rw [IsQuotable, String.toList_ofList]
  rintro ⟨hsingle, hdouble⟩
  rcases hq with rfl | rfl
  · exact h hsingle
  · exact h hdouble

theorem getLast?_trimEnd (cs : List Char) :
    ∀ c ∈ (Text.trimEnd cs).getLast?, isBlank c = false := by
  rw [Text.trimEnd, List.getLast?_reverse]
  exact stops_dropWhile isBlank cs.reverse

/-- A text that does not start with a blank keeps its first character when blanks at its end are
cut off. -/
theorem trimEnd_cons {c : Char} (hc : isBlank c = false) (cs : List Char) :
    ∃ rest, Text.trimEnd (c :: cs) = c :: rest ∧ rest <+: cs := by
  have hprefix : Text.trimEnd (c :: cs) <+: c :: cs := by
    rw [← List.reverse_suffix, Text.trimEnd, List.reverse_reverse]
    exact List.dropWhile_suffix isBlank
  -- the first character is no blank, so not everything is cut off
  have hne : Text.trimEnd (c :: cs) ≠ [] := by
    intro h
    rw [Text.trimEnd, List.reverse_eq_nil_iff, List.dropWhile_eq_nil_iff] at h
    exact Bool.eq_false_iff.1 hc (h c (List.mem_reverse.2 List.mem_cons_self))
  exact (List.prefix_cons_iff.1 hprefix).resolve_left hne

theorem isValue_trimEnd {c : Char} (hc : Starts c) {run : List Char}
    (hrun : ∀ c ∈ run, inValue c = true) :
    IsValue (String.ofList (Text.trimEnd (c :: run))) := by
  obtain ⟨hopen, hclose, hcomma⟩ := not_symbol_cases hc.noSymbol
  obtain ⟨rest, htrim, hrest⟩ := trimEnd_cons hc.noBlank run
  refine ⟨?_, ?_, ?_, ?_⟩ <;> rw [String.toList_ofList]
  · rw [htrim]
    exact List.cons_ne_nil c rest
  · rw [htrim]
    refine List.forall_mem_cons.2 ⟨⟨hcomma, hclose⟩, ?_⟩
    intro x hx
    simpa [inValue] using hrun x (hrest.subset hx)
  · rw [htrim]
    rintro x ⟨⟩
    exact ⟨hc.noBlank, hopen, hc.noQuote⟩
  · exact getLast?_trimEnd (c :: run)

theorem lexed_ofWord {c : Char} (hc : Starts c) {run : List Char}
    (hrun : ∀ c ∈ run, inWord c = true) {ts : List Token} (h : Lexed 0 ts) :
    Lexed 0 (Token.ofWord (c :: run) :: ts) := by
  unfold Token.ofWord
  dsimp only
  split
  · exact .keyword h
  · next hword =>
    refine .word ⟨?_, ?_, ?_, ofWord?_eq_none_iff.1 hword⟩ h <;> rw [String.toList_ofList]
    · exact List.cons_ne_nil c run
    · refine List.forall_mem_cons.2 ⟨⟨hc.noBlank, not_symbol_cases hc.noSymbol⟩, ?_⟩
      exact fun x hx => inWord_iff.1 (hrun x hx)
    · rintro x ⟨⟩
      exact hc.noQuote

theorem endsValue_of_scan {depth : Nat} {after : List Char} (hafter : Stops inValue after)
    {ts : List Token} (h : scan depth after = .ok ts) : EndsValue ts := by
  cases after with
  | nil =>
    rw [scan] at h
    cases h
    rintro t ⟨⟩
    exact .inr (.inr rfl)
  | cons c after =>
    have hc := hafter c rfl
    simp only [inValue, Bool.and_eq_false_iff, bne_eq_false_iff_eq] at hc
    rcases hc with rfl | rfl
    · rw [scan_comma] at h
      obtain ⟨ts, -, rfl⟩ := map_eq_ok_iff.1 h
      rintro t ⟨⟩
      exact .inl rfl
    · rw [scan_close] at h
      obtain ⟨ts, -, rfl⟩ := map_eq_ok_iff.1 h
      rintro t ⟨⟩
      exact .inr (.inl rfl)

/-- The lexer finds no other words, values and quoted values than those that stand for
themselves. -/
theorem lexed_of_scan {depth : Nat} {cs : List Char} :
    ∀ {ts : List Token}, scan depth cs = .ok ts → Lexed depth ts := by
  fun_induction scan depth cs with
  | case1 depth =>
    intro ts h
    cases h
    exact .endOfInput
  | case2 depth c cs hc ih => exact ih
  | case3 depth cs hc ih =>
    intro ts h
    obtain ⟨ts, hts, rfl⟩ := map_eq_ok_iff.1 h
    exact .leftBracket (ih hts)
  | case4 depth cs hc _ ih =>
    intro ts h
    obtain ⟨ts, hts, rfl⟩ := map_eq_ok_iff.1 h
    exact .rightBracket (ih hts)
  | case5 depth cs hc _ _ ih =>
    intro ts h
    obtain ⟨ts, hts, rfl⟩ := map_eq_ok_iff.1 h
    exact .comma (ih hts)
  | case6 =>
    intro ts h
    cases h
  | case7 depth c cs _ _ _ _ hq text after hcut _ ih =>
    intro ts h
    obtain ⟨ts, hts, rfl⟩ := map_eq_ok_iff.1 h
    exact .quoted (isQuotable_of_notMem hq (Text.cut?_eq_some_iff.1 hcut).2) (ih hts)
  | case8 depth c cs h₁ h₂ h₃ h₄ h₅ hdepth _ _ =>
    rename_i ih
    intro ts h
    obtain ⟨ts, hts, rfl⟩ := map_eq_ok_iff.1 h
    have hrun := forall_mem_takeWhile inValue cs
    have hends := endsValue_of_scan (stops_dropWhile inValue cs) hts
    exact .value hdepth (isValue_trimEnd (.of_not h₁ h₂ h₃ h₄ h₅) hrun) hends (ih hts)
  | case9 depth c cs h₁ h₂ h₃ h₄ h₅ hdepth _ ih =>
    intro ts h
    obtain rfl : depth = 0 := Nat.eq_zero_of_not_pos hdepth
    obtain ⟨ts, hts, rfl⟩ := map_eq_ok_iff.1 h
    exact lexed_ofWord (.of_not h₁ h₂ h₃ h₄ h₅) (forall_mem_takeWhile inWord cs) (ih hts)

end RecordStore

import RecordStore.Proofs.Token.Spelling

/-!
# Writing a text again from its tokens

The tokens of a text can be written in other ways: a keyword in letters of either case, a quoted
value between either quote that it does not contain, and with other blanks between them. None of
this changes what the lexer finds, whether the brackets of the text match or not.

- `Token.IsSpelled`, `Written`, `IsRespelling`: the ways to write a token, tokens in a row, and a
  whole text;
- `Lexed.scan_written`: tokens of a text, written again, are found again;
- `tokenize_respelling`: the main result;
- `exists_tokenize_iff`: which lists of tokens some text has.
-/

namespace RecordStore

open Text (isBlank)
open Token (isQuote isSymbol inWord inValue scan)

/-! ## Ways to write a token -/

/-- A way to write a token. A keyword has letters of either case; a value is written between either
quote that is none of its characters. -/
def Token.IsSpelled : Token → List Char → Prop
  | keyword k, cs => cs.map Char.toUpper = k.text.toList
  | word w, cs => cs = w.toList
  | quoted text, cs => ∃ q, isQuote q = true ∧ q ∉ text.toList ∧ cs = q :: (text.toList ++ [q])
  | leftBracket, cs => cs = ['[']
  | rightBracket, cs => cs = [']']
  | comma, cs => cs = [',']
  | endOfInput, _ => False

/-- Tokens in a row, each with blanks after it. Only the last one before the end may go without. -/
inductive Written : List Token → List Char → Prop where
  | endOfInput : Written [.endOfInput] []
  | cons {t : Token} {ts : List Token} {spelling blanks cs : List Char} (ht : t.IsSpelled spelling)
    (hblanks : ∀ c ∈ blanks, isBlank c = true) (hlast : blanks = [] → cs = [])
    (h : Written ts cs) : Written (t :: ts) (spelling ++ (blanks ++ cs))

/-- A text that tokens can be written as, with blanks around them. -/
def IsRespelling (ts : List Token) (text : String) : Prop :=
  ∃ blanks cs, (∀ c ∈ blanks, isBlank c = true) ∧ Written ts cs ∧ text.toList = blanks ++ cs

theorem exists_isSpelled_quoted {text : String} (h : IsQuotable text) :
    ∃ cs, (Token.quoted text).IsSpelled cs := by
  by_cases hsingle : '\'' ∈ text.toList
  · exact ⟨_, '"', by decide, fun hdouble => h ⟨hsingle, hdouble⟩, rfl⟩
  · exact ⟨_, '\'', by decide, hsingle, rfl⟩

theorem isSpelled_keyword (k : Keyword) : (Token.keyword k).IsSpelled k.text.toList := by
  rw [Token.IsSpelled]
  cases k <;> decide

/-- Every list of tokens that a text can have can be written. -/
theorem Lexed.exists_written {depth : Nat} {ts : List Token} (h : Lexed depth ts) :
    ∃ cs, Written ts cs := by
  have hspace : ∀ c ∈ [' '], isBlank c = true := List.forall_mem_singleton.2 (by decide)
  have hcons {t : Token} {ts : List Token} (ht : ∃ spelling, t.IsSpelled spelling)
      (h : ∃ cs, Written ts cs) : ∃ cs, Written (t :: ts) cs := by
    obtain ⟨spelling, ht⟩ := ht
    obtain ⟨cs, hcs⟩ := h
    exact ⟨_, .cons ht hspace (by simp) hcs⟩
  induction h with
  | endOfInput => exact ⟨_, .endOfInput⟩
  | leftBracket _ ih | rightBracket _ ih | comma _ ih => exact hcons ⟨_, rfl⟩ ih
  | quoted htext _ ih => exact hcons (exists_isSpelled_quoted htext) ih
  | value _ _ _ _ ih | word _ _ ih => exact hcons ⟨_, rfl⟩ ih
  | @keyword k _ _ ih => exact hcons ⟨k.text.toList, isSpelled_keyword k⟩ ih

/-! ## Keywords in letters of either case -/

theorem inWord_of_lower {c : Char} (hfirst : 97 ≤ c.toNat) (hlast : c.toNat ≤ 122) :
    inWord c = true ∧ isQuote c = false := by
  have hne {d : Char} (hd : d.toNat < 97) : c ≠ d := by
    rintro rfl
    omega
  have hblank : isBlank c = false := by
    simp only [isBlank, Bool.or_eq_false_iff, Bool.and_eq_false_iff, beq_eq_false_iff_ne,
      decide_eq_false_iff_not]
    omega
  simp [inWord, isSymbol, isQuote, hblank, @hne '[' (by decide), @hne ']' (by decide),
    @hne ',' (by decide), @hne '\'' (by decide), @hne '"' (by decide)]

theorem inWord_of_toUpper {c : Char} (h : inWord c.toUpper = true ∧ isQuote c.toUpper = false) :
    inWord c = true ∧ isQuote c = false := by
  by_cases hlower : 'a'.val ≤ c.val ∧ c.val ≤ 'z'.val
  · exact inWord_of_lower hlower.1 hlower.2
  -- every other character is its own capital
  · rwa [Char.toUpper, dif_neg hlower] at h

theorem inWord_of_isSpelled {k : Keyword} {cs : List Char}
    (h : (Token.keyword k).IsSpelled cs) : ∀ c ∈ cs, inWord c = true ∧ isQuote c = false := by
  intro c hc
  have hupper : c.toUpper ∈ k.text.toList := by
    rw [← show cs.map Char.toUpper = k.text.toList from h]
    exact List.mem_map_of_mem hc
  exact inWord_of_toUpper (inWord_keyword k _ hupper)

theorem ofWord_of_isSpelled {k : Keyword} {cs : List Char}
    (h : (Token.keyword k).IsSpelled cs) : Token.ofWord cs = .keyword k := by
  have hupper : Text.upper (String.ofList cs) = k.text := by
    rw [Text.upper, String.toList_ofList, show cs.map Char.toUpper = k.text.toList from h,
      String.ofList_toList]
  simp only [Token.ofWord, ofWord?_eq_some_iff.2 hupper]

/-! ## Tokens that are written again -/

theorem trimEnd_append_blanks {blanks : List Char} (h : ∀ c ∈ blanks, isBlank c = true)
    (cs : List Char) : Text.trimEnd (cs ++ blanks) = Text.trimEnd cs := by
  induction blanks generalizing cs with
  | nil => rw [List.append_nil]
  | cons b blanks ih =>
    obtain ⟨hb, hblanks⟩ := List.forall_mem_cons.1 h
    rw [← List.singleton_append, ← List.append_assoc, ih hblanks, trimEnd_append_blank hb]

/-- Behind a bare value the next token is written with a character that ends the value. -/
theorem EndsValue.stops {ts : List Token} {cs : List Char} (hends : EndsValue ts)
    (h : Written ts cs) : Stops inValue cs := by
  cases h with
  | endOfInput =>
    intro c hc
    cases hc
  | cons ht =>
    rcases hends _ rfl with rfl | rfl | rfl
    · cases ht
      rintro c ⟨⟩
      decide
    · cases ht
      rintro c ⟨⟩
      decide
    · exact ht.elim

theorem scan_spelled_value {v : String} (hv : IsValue v) {depth : Nat} (hdepth : 0 < depth)
    {blanks after : List Char} (hblanks : ∀ c ∈ blanks, isBlank c = true)
    (hafter : Stops inValue after) :
    scan depth (v.toList ++ (blanks ++ after)) = (scan depth after).map (.word v :: ·) := by
  obtain ⟨c, run, hcs⟩ := List.exists_cons_of_ne_nil hv.ne_nil
  have hstart : Starts c := by
    obtain ⟨hblank, hopen, hquote⟩ := hv.start c (by rw [hcs]; rfl)
    obtain ⟨hcomma, hclose⟩ := hv.plain c (by rw [hcs]; exact List.mem_cons_self)
    exact .of_not (Bool.eq_false_iff.1 hblank) hopen hclose hcomma (Bool.eq_false_iff.1 hquote)
  have hrun : ∀ x ∈ run ++ blanks, inValue x = true := by
    refine List.forall_mem_append.2 ⟨?_, fun x hx => inValue_of_isBlank (hblanks x hx)⟩
    intro x hx
    exact hv.inValue x (by rw [hcs]; exact List.mem_cons_of_mem c hx)
  -- the value runs over the blanks behind it, which are cut off again
  have htrim : Text.trimEnd (c :: (run ++ blanks)) = v.toList := by
    rw [← List.cons_append, ← hcs, trimEnd_append_blanks hblanks, trimEnd_of_stop hv.stop]
  rw [hcs, List.cons_append, ← List.append_assoc, scan_value hstart hdepth hrun hafter, htrim,
    String.ofList_toList]

/-- Tokens of a text are found again however they are written. -/
theorem Lexed.scan_written {depth : Nat} {ts : List Token} (h : Lexed depth ts) {cs : List Char}
    (hcs : Written ts cs) : scan depth cs = .ok ts := by
  induction h generalizing cs with
  | endOfInput =>
    cases hcs with
    | endOfInput => rw [scan]
    | cons ht => exact ht.elim
  | leftBracket _ ih =>
    cases hcs with
    | cons ht hblanks _ hcs =>
      cases ht
      rw [List.singleton_append, scan_open, scan_blanks hblanks, ih hcs]
      rfl
  | rightBracket _ ih =>
    cases hcs with
    | cons ht hblanks _ hcs =>
      cases ht
      rw [List.singleton_append, scan_close, scan_blanks hblanks, ih hcs]
      rfl
  | comma _ ih =>
    cases hcs with
    | cons ht hblanks _ hcs =>
      cases ht
      rw [List.singleton_append, scan_comma, scan_blanks hblanks, ih hcs]
      rfl
  | quoted _ _ ih =>
    cases hcs with
    | cons ht hblanks _ hcs =>
      obtain ⟨q, hq, hnot, rfl⟩ := ht
      rw [List.cons_append, List.append_assoc, List.singleton_append, scan_quoted hq hnot,
        scan_blanks hblanks, ih hcs, String.ofList_toList]
      rfl
  | value hdepth hv hends _ ih =>
    cases hcs with
    | cons ht hblanks _ hcs =>
      cases ht
      rw [scan_spelled_value hv hdepth hblanks (hends.stops hcs), ih hcs]
      rfl
  | word hw _ ih =>
    cases hcs with
    | cons ht hblanks hlast hcs =>
      cases ht
      rw [scan_ofWord hw.ne_nil hw.inWord hw.noQuote hblanks hlast, ih hcs, hw.ofWord]
      rfl
  | @keyword k _ _ ih =>
    cases hcs with
    | @cons _ _ spelling _ _ ht hblanks hlast hcs =>
      have hplain := inWord_of_isSpelled ht
      have hne : spelling ≠ [] := by
        rintro rfl
        exact keyword_ne_nil k ht.symm
      rw [scan_ofWord hne (fun c hc => (hplain c hc).1)
        (fun c hc => (hplain c (List.mem_of_mem_head? hc)).2) hblanks hlast, ih hcs,
        ofWord_of_isSpelled ht]
      rfl

/-! ## Texts that are written again -/

theorem Lexed.tokenize_of_isRespelling {ts : List Token} (h : Lexed 0 ts) {text : String}
    (htext : IsRespelling ts text) : tokenize text = .ok ts := by
  obtain ⟨blanks, cs, hblanks, hcs, heq⟩ := htext
  rw [tokenize_eq_ok_iff, heq, scan_blanks hblanks, h.scan_written hcs]

theorem Lexed.exists_isRespelling {ts : List Token} (h : Lexed 0 ts) :
    ∃ text, IsRespelling ts text := by
  obtain ⟨cs, hcs⟩ := h.exists_written
  refine ⟨String.ofList cs, [], cs, List.forall_mem_nil _, hcs, ?_⟩
  rw [String.toList_ofList, List.nil_append]

/-- The tokens of a text can be written again, and are found again in every text that they can be
written as: with keywords in letters of either case, values between either quote that they do not
contain, and any blanks between two tokens and around all of them. -/
theorem tokenize_respelling {text : String} {ts : List Token} (h : tokenize text = .ok ts) :
    (∃ text', IsRespelling ts text') ∧
      ∀ text', IsRespelling ts text' → tokenize text' = .ok ts := by
  have hlexed := lexed_of_scan (tokenize_eq_ok_iff.1 h)
  exact ⟨hlexed.exists_isRespelling, fun text' => hlexed.tokenize_of_isRespelling⟩

/-- A closing bracket that closes nothing, an opening one that is never closed, and a bare value
with blanks inside. -/
theorem tokenize_respelling_unmatched :
    let ts := [.keyword .add, .rightBracket, .leftBracket, .word "x  y", .comma, .quoted "Z",
      .endOfInput]
    tokenize "add ][x  y,'Z'" = .ok ts ∧ tokenize " aDD ]\t[ x  y , \"Z\"\n" = .ok ts := by
  have h : tokenize "add ][x  y,'Z'" = .ok [.keyword .add, .rightBracket, .leftBracket,
      .word "x  y", .comma, .quoted "Z", .endOfInput] := by
    decide +kernel
  have hblank {b : Char} (hb : isBlank b = true) : ∀ c ∈ [b], isBlank c = true :=
    List.forall_mem_singleton.2 hb
  refine ⟨h, (tokenize_respelling h).2 _ ⟨[' '], _, hblank (by decide), ?_, rfl⟩⟩
  refine @Written.cons _ _ "aDD".toList [' '] _ rfl (hblank (by decide)) (by simp) ?_
  refine @Written.cons _ _ [']'] ['\t'] _ rfl (hblank (by decide)) (by simp) ?_
  refine @Written.cons _ _ ['['] [' '] _ rfl (hblank (by decide)) (by simp) ?_
  refine @Written.cons _ _ "x  y".toList [' '] _ rfl (hblank (by decide)) (by simp) ?_
  refine @Written.cons _ _ [','] [' '] _ rfl (hblank (by decide)) (by simp) ?_
  refine @Written.cons _ _ "\"Z\"".toList ['\n'] _ ?_ (hblank (by decide)) (by simp) .endOfInput
  exact ⟨'"', by decide⟩

/-- The lists of tokens that some text has: words and values stand for themselves at their depth,
and a bare value has a comma, a closing bracket or the end behind it. -/
theorem exists_tokenize_iff {ts : List Token} :
    (∃ text, tokenize text = .ok ts) ↔ Lexed 0 ts := by
  constructor
  · rintro ⟨text, h⟩
    exact lexed_of_scan (tokenize_eq_ok_iff.1 h)
  · intro h
    obtain ⟨text, htext⟩ := h.exists_isRespelling
    exact ⟨text, h.tokenize_of_isRespelling htext⟩

end RecordStore

import RecordStore.Proofs.Query.RoundTrip

/-!
# Queries that were read and are written again

Every name and value of a query that was read stands for itself where it is written, since the lexer
finds no others. The one exception is an id after `ENTRY`: it may be read from a quoted value, and
is written without quotes. So a query that was read is read again from its text exactly if its id,
where it has one, is a word.

- `parse_eq_ok_iff`: a text is read as a query if its tokens spell it;
- `expressible_of_lexed`: what the tokens of a text spell is expressible, but for its id;
- `parse_render_iff_of_parse`: the main result;
- `parse_render_ne_of_quoted_id`: a query that is lost.
-/

namespace RecordStore

open Token (scan)

/-! ## The tokens of a query text -/

/-- The end of the input is the last token of a text, and no other one. -/
theorem Lexed.exists_append_endOfInput {depth : Nat} {ts : List Token} (h : Lexed depth ts) :
    ∃ us, ts = us ++ [.endOfInput] ∧ .endOfInput ∉ us := by
  induction h with
  | endOfInput => exact ⟨[], rfl, List.not_mem_nil⟩
  | leftBracket _ ih | rightBracket _ ih | comma _ ih | quoted _ _ ih | value _ _ _ _ ih
  | word _ _ ih | keyword _ ih =>
    obtain ⟨us, rfl, hus⟩ := ih
    exact ⟨_ :: us, rfl, by simp [hus]⟩

/-- A text is read as a query exactly if its tokens spell the query. -/
theorem parse_eq_ok_iff {text : String} {q : Query} :
    Query.parse text = .ok q ↔
      ∃ ts, scan 0 text.toList = .ok (ts ++ [.endOfInput]) ∧ Spells ts q := by
  constructor
  · intro h
    obtain ⟨tokens, htokens, h⟩ := bind_eq_ok_iff.1 h
    obtain ⟨pre, rest, hpre, heq, hrest⟩ := ofTokens_eq_ok_iff.1 h
    have hscan := tokenize_eq_ok_iff.1 htokens
    obtain ⟨us, rfl, hus⟩ := (lexed_of_scan hscan).exists_append_endOfInput
    rw [hpre.eq_of_append_eq hus hrest heq] at hpre
    exact ⟨us, hscan, hpre⟩
  · rintro ⟨ts, hscan, hts⟩
    refine bind_eq_ok_iff.2 ⟨_, tokenize_eq_ok_iff.2 hscan, ?_⟩
    exact ofTokens_eq_ok_iff.2 ⟨ts, _, hts, rfl, rfl⟩

/-- A text that lexes with a blank behind it does so without. -/
theorem scan_of_lexes {cs : List Char} {ts : List Token} (h : Lexes 0 (cs ++ [' ']) ts 0) :
    scan 0 cs = .ok (ts ++ [.endOfInput]) := by
  have hspaced := h []
  rw [List.append_nil, scan] at hspaced
  rw [← scan?_eq_some_iff, ← scan?_append_blank (b := ' ') (by decide), scan?_eq_some_iff]
  exact hspaced

/-- An expressible query is read from the text that it is written as. -/
theorem parse_of_expressible {q : Query} (h : q.Expressible) : Query.parse q.render = .ok q := by
  obtain ⟨ts, hts, hlexes⟩ := spells_query h
  exact parse_eq_ok_iff.2 ⟨ts, scan_of_lexes hlexes, hts⟩

/-! ## What was read can be written -/

/-- The target that the tokens of a text spell is expressible if its id is a word. -/
theorem target_of_lexed {ts rest : List Token} {t : Target} (ht : SpellsTarget ts t)
    (hid : ∀ id, t = .entry id → IsWord id) (h : Lexed 0 (ts ++ rest)) :
    t.Expressible ∧ Lexed 0 rest := by
  cases ht with
  | all => exact ⟨List.forall_mem_nil _, h⟩
  | word id =>
    obtain ⟨hword, hrest⟩ := h.keyword_inv.word_inv
    exact ⟨hword, hrest⟩
  | quoted id =>
    refine ⟨hid id rfl, ?_⟩
    cases h.keyword_inv with
    | quoted _ h => exact h
  | conditions hds => exact dependencies_of_lexed hds h.keyword_inv

/-- The query that the tokens of a text spell is expressible if its id is a word. -/
theorem expressible_of_lexed {ts rest : List Token} {q : Query} (hq : Spells ts q)
    (hid : ∀ id, q.target? = some (.entry id) → IsWord id) (h : Lexed 0 (ts ++ rest)) :
    q.Expressible := by
  cases hq with
  | add table hne =>
    rw [List.cons_append, List.append_assoc] at h
    obtain ⟨hvalues, h⟩ := h.keyword_inv.listTokens_inv hne
    exact ⟨inTable_of_lexed h, hvalues⟩
  | remove table htarget | get table htarget =>
    rw [List.cons_append, List.append_assoc] at h
    obtain ⟨htarget, h⟩ := target_of_lexed htarget (fun id heq => hid id (congrArg some heq))
      h.keyword_inv
    exact ⟨inTable_of_lexed h, htarget⟩
  | set table htarget hne =>
    rw [List.cons_append, List.append_assoc] at h
    obtain ⟨htarget, h⟩ := target_of_lexed htarget (fun id heq => hid id (congrArg some heq))
      h.keyword_inv
    rw [List.cons_append, List.append_assoc] at h
    obtain ⟨hvalues, h⟩ := h.keyword_inv.listTokens_inv hne
    exact ⟨inTable_of_lexed h, htarget, hvalues⟩
  | drop table => exact h.keyword_inv.word_inv.1

theorem Query.Expressible.isWord_of_entry {q : Query} (h : q.Expressible) {id : String}
    (hid : q.target? = some (.entry id)) : IsWord id := by
  cases q with
  | add table values => cases hid
  | remove table target | get table target =>
    cases hid
    exact h.2
  | set table target values =>
    cases hid
    exact h.2.1
  | drop table => cases hid

/-- A query that was read from any text is read again from the text that it is written as, exactly
if the id that it names, if any, is a word. -/
theorem parse_render_iff_of_parse {text : String} {q : Query} (h : Query.parse text = .ok q) :
    Query.parse q.render = .ok q ↔ ∀ id, q.target? = some (.entry id) → IsWord id := by
  constructor
  · intro hrender id hid
    obtain ⟨ts, hscan, hts⟩ := parse_eq_ok_iff.1 hrender
    exact (expressible_of_scan hts hscan).isWord_of_entry hid
  · intro hid
    obtain ⟨ts, hscan, hts⟩ := parse_eq_ok_iff.1 h
    exact parse_of_expressible (expressible_of_lexed hts hid (lexed_of_scan hscan))

set_option maxRecDepth 4000 in
/-- An id that is a word may be read from a quoted value. -/
theorem parse_render_iff_of_parse_quoted_word :
    Query.parse "set entry \"a1\" to ['x', *] in T" =
        .ok (.set "T" (.entry "a1") [.ofQuoted "x", .bare "*"]) ∧
      Query.parse (Query.set "T" (.entry "a1") [.ofQuoted "x", .bare "*"]).render =
        .ok (.set "T" (.entry "a1") [.ofQuoted "x", .bare "*"]) := by
  have hparse : Query.parse "set entry \"a1\" to ['x', *] in T" =
      .ok (.set "T" (.entry "a1") [.ofQuoted "x", .bare "*"]) := by cbv
  refine ⟨hparse, (parse_render_iff_of_parse hparse).2 ?_⟩
  rintro id ⟨⟩
  refine ⟨by decide, ?_, ?_, ?_⟩
  · exact List.forall_mem_cons.2 ⟨by decide, List.forall_mem_singleton.2 (by decide)⟩
  · rintro c ⟨⟩
    decide
  · intro k
    cases k <;> decide

set_option maxRecDepth 4000 in
/-- An id with a blank in it is written as two words, which no longer spell an id. -/
theorem parse_render_ne_of_quoted_id :
    Query.parse "GET ENTRY 'a b' IN T" = .ok (.get "T" (.entry "a b")) ∧
      Query.parse (Query.get "T" (.entry "a b")).render ≠ .ok (.get "T" (.entry "a b")) := by
  have hrender : Query.parse (Query.get "T" (.entry "a b")).render =
      .error (.unexpectedToken "IN" "\"b\"") := by cbv
  refine ⟨by cbv, ?_⟩
  rw [hrender]
  intro h
  cases h

end RecordStore

import RecordStore.Proofs.Name
import RecordStore.Proofs.Query.Accepted

/-!
# How far a bare value reaches

A bare value after `WHERE` is a run of words without quotes. Where it ends is settled before the
query is read: the lexer makes a keyword of a word wherever it stands outside brackets, and a value
does not go on over a keyword. So it ends not only at the keywords that may follow it but at every
other one too, and a query with such a word in a value is refused.

- `IsBareWord`, `Spaced`: words as they are written, with blanks between them;
- `Spaced.scan`: the tokens of such a text;
- `ofTokens_words`, `ofTokens_cut`: a condition whose value is made of words, and one whose value
  meets a keyword;
- `parse_bareValue`: the main result.
-/

namespace RecordStore

open Text (isBlank)
open Token (isQuote inWord scan)
open TokenReader

/-! ## Words with blanks between them -/

/-- A word outside brackets: not empty, without blanks, brackets and commas, and with no quote at
its start. It may be a keyword. -/
structure IsBareWord (w : String) : Prop where
  ne_nil : w.toList ≠ []
  plain : ∀ c ∈ w.toList, isBlank c = false ∧ c ≠ '[' ∧ c ≠ ']' ∧ c ≠ ','
  noQuote : ∀ c ∈ w.toList.head?, isQuote c = false

theorem isBareWord_iff {w : String} : IsBareWord w ↔
    w.toList ≠ [] ∧ w.toList.all inWord = true ∧ w.toList.head?.all (!isQuote ·) = true := by
  simp only [List.all_eq_true, inWord_iff, Option.all_eq_true, Bool.not_eq_true']
  exact ⟨fun h => ⟨h.1, h.2, h.3⟩, fun ⟨hne, hplain, hquote⟩ => ⟨hne, hplain, hquote⟩⟩

instance (w : String) : Decidable (IsBareWord w) := decidable_of_iff _ isBareWord_iff.symm

theorem IsWord.isBareWord {w : String} (h : IsWord w) : IsBareWord w := ⟨h.1, h.2, h.3⟩

theorem isBareWord_keyword (k : Keyword) : IsBareWord k.text where
  ne_nil := keyword_ne_nil k
  plain := fun c hc => inWord_iff.1 (inWord_keyword k c hc).1
  noQuote := fun c hc => (inWord_keyword k c (List.mem_of_mem_head? hc)).2

/-- Words in a row, each with blanks after it. Only the last one may go without. -/
inductive Spaced : List String → List Char → Prop where
  | nil : Spaced [] []
  | cons {w : String} {ws : List String} {blanks cs : List Char}
    (hblanks : ∀ c ∈ blanks, isBlank c = true) (hlast : blanks = [] → cs = [])
    (h : Spaced ws cs) : Spaced (w :: ws) (w.toList ++ (blanks ++ cs))

/-- Single spaces are one way to write blanks. -/
theorem spaced_intercalate (ws : List String) : Spaced ws (" ".intercalate ws).toList := by
  have hspace : ∀ c ∈ [' '], isBlank c = true := List.forall_mem_singleton.2 (by decide)
  induction ws with
  | nil => exact .nil
  | cons w ws ih =>
    cases ws with
    | nil =>
      have h : Spaced [w] (w.toList ++ ([] ++ [])) :=
        .cons (List.forall_mem_nil _) (fun _ => rfl) .nil
      rwa [List.append_nil, List.append_nil] at h
    | cons w' ws =>
      have h := Spaced.cons (w := w) hspace (by simp) ih
      rw [String.intercalate_cons_cons]
      simpa using h

/-- Each word is a token, which is a keyword or the word itself. -/
theorem Spaced.scan {ws : List String} {cs : List Char} (h : Spaced ws cs)
    (hws : ∀ w ∈ ws, IsBareWord w) :
    scan 0 cs = .ok (ws.map (fun w => Token.ofWord w.toList) ++ [.endOfInput]) := by
  induction h with
  | nil => rw [Token.scan, List.map_nil, List.nil_append]
  | cons hblanks hlast _ ih =>
    obtain ⟨hw, hws⟩ := List.forall_mem_cons.1 hws
    rw [scan_ofWord hw.ne_nil (fun c hc => inWord_iff.2 (hw.plain c hc)) hw.noQuote hblanks hlast,
      ih hws]
    rfl

theorem ofWord_eq_keyword {w : String} {k : Keyword} (h : Keyword.ofWord? w = some k) :
    Token.ofWord w.toList = .keyword k := by
  simp only [Token.ofWord, String.ofList_toList, h]

theorem map_ofWord {ws : List String} (h : ∀ w ∈ ws, Keyword.ofWord? w = none) :
    ws.map (fun w => Token.ofWord w.toList) = ws.map .word := by
  refine List.map_congr_left fun w hw => ?_
  simp only [Token.ofWord, String.ofList_toList, h w hw]

/-! ## Conditions whose value is made of words -/

/-- The tokens of a query with one condition, up to the value. -/
def conditionStart (column : String) (comparator : Comparator) : List Token :=
  [.keyword .get, .keyword .where, .word column, .keyword comparator.keyword]

theorem spells_condition (column : String) (comparator : Comparator) {ws : List String}
    (hne : ws ≠ []) :
    SpellsDependency (.word column :: .keyword comparator.keyword :: ws.map .word)
      ⟨column, comparator, .bare (" ".intercalate ws)⟩ :=
  .mk column comparator (.words hne)

theorem ofTokens_words (column table : String) (comparator : Comparator) {ws : List String}
    (hne : ws ≠ []) :
    Query.ofTokens (conditionStart column comparator ++
        (ws.map .word ++ (inTable table ++ [.endOfInput]))) =
      .ok (.get table (.dependencies [⟨column, comparator, .bare (" ".intercalate ws)⟩])) := by
  have htarget := SpellsTarget.conditions (.one (spells_condition column comparator hne))
  refine ofTokens_eq_ok_iff.2 ⟨_, [.endOfInput], .get table htarget, ?_, rfl⟩
  simp [conditionStart]

/-! ## Conditions whose value meets a keyword -/

theorem dependencies_of_error {ts left : List Token} {e : ParseError}
    (h : dependency ts = .error e left) : dependencies ts = .error e left := by
  rw [dependencies]
  split
  · next hd =>
    rw [h] at hd
    cases hd
    rfl
  · next hd =>
    rw [h] at hd
    cases hd
  · next hd =>
    rw [h] at hd
    cases hd

theorem dependency_keyword (column : String) (c : Comparator) (k : Keyword) (rest : List Token) :
    dependency (.word column :: .keyword c.keyword :: .keyword k :: rest) =
      .error (.missingValue column) (.keyword k :: rest) := by
  refine bind_run_eq_error_iff.2 (.inr ⟨column, _, rfl, ?_⟩)
  refine bind_run_eq_error_iff.2 (.inr ⟨c, _, comparator_of_keyword c _, ?_⟩)
  exact bind_run_eq_error_iff.2 (.inl rfl)

theorem tableSuffix_keyword {k : Keyword} (hk : k ≠ .in) (rest : List Token) :
    tableSuffix (.keyword k :: rest) =
      .error (.unexpectedToken "IN" k.text) (.keyword k :: rest) := by
  cases k with
  | «in» => exact absurd rfl hk
  | _ => rfl

theorem statement_get (ts : List Token) :
    statement (.keyword .get :: ts) = targetInTable .get ts := rfl

theorem target_where (column : String) (ts : List Token) :
    target (.keyword .where :: .word column :: ts) =
      match dependencies (.word column :: ts) with
      | .ok conditions rest => .ok (.dependencies conditions) rest
      | .error e rest => .error e rest := rfl

/-- A keyword in place of the value leaves none, and after a part of the value it stands where the
table is expected. -/
theorem ofTokens_cut (column : String) (comparator : Comparator) (ws : List String) {k : Keyword}
    (hand : k ≠ .and) (hin : k ≠ .in) (rest : List Token) :
    Query.ofTokens (conditionStart column comparator ++ (ws.map .word ++ .keyword k :: rest)) =
      .error (if ws = [] then .missingValue column else .unexpectedToken "IN" k.text) := by
  have hstatement : statement (conditionStart column comparator ++
      (ws.map .word ++ .keyword k :: rest)) =
        .error (if ws = [] then .missingValue column else .unexpectedToken "IN" k.text)
          (.keyword k :: rest) := by
    simp only [conditionStart, List.cons_append, List.nil_append]
    rw [statement_get, targetInTable]
    by_cases hne : ws = []
    · subst hne
      refine bind_run_eq_error_iff.2 (.inl ?_)
      rw [List.map_nil, List.nil_append, target_where,
        dependencies_of_error (dependency_keyword column comparator k rest), if_pos rfl]
    · have hread := dependencies_of_spells (.one (spells_condition column comparator hne))
        ⟨k, rest, hand, rfl⟩
      rw [List.cons_append, List.cons_append] at hread
      refine bind_run_eq_error_iff.2 (.inr ⟨_, _, by rw [target_where, hread], ?_⟩)
      rw [if_neg hne]
      exact bind_run_eq_error_iff.2 (.inl (tableSuffix_keyword hin rest))
  rw [Query.ofTokens, hstatement]

/-! ## Queries with a bare value -/

/-- The words of a query with one condition that has a bare value. -/
def conditionWords (column : String) (comparator : Comparator) (value : List String)
    (table : String) : List String :=
  ["GET", "WHERE", column, comparator.keyword.text] ++ (value ++ ["IN", table])

theorem tokenize_conditionWords {column table : String} (hcolumn : Name.check column = .ok ())
    (htable : Name.check table = .ok ()) (comparator : Comparator) {value : List String}
    (hvalue : ∀ w ∈ value, IsBareWord w) {text : String}
    (htext : Spaced (conditionWords column comparator value table) text.toList) :
    tokenize text = .ok (conditionStart column comparator ++
      (value.map (fun w => Token.ofWord w.toList) ++ (inTable table ++ [.endOfInput]))) := by
  have hcolumn := Name.isWord_of_check hcolumn
  have htable := Name.isWord_of_check htable
  have hwords : ∀ w ∈ conditionWords column comparator value table, IsBareWord w := by
    intro w hw
    simp only [conditionWords, List.cons_append, List.nil_append, List.mem_cons, List.mem_append,
      List.not_mem_nil, or_false] at hw
    rcases hw with rfl | rfl | rfl | rfl | hw | rfl | rfl
    · exact isBareWord_keyword .get
    · exact isBareWord_keyword .where
    · exact hcolumn.isBareWord
    · exact isBareWord_keyword comparator.keyword
    · exact hvalue w hw
    · exact isBareWord_keyword .in
    · exact htable.isBareWord
  have hkeyword (k : Keyword) : Token.ofWord k.text.toList = .keyword k :=
    ofWord_eq_keyword k.ofWord?_text
  rw [tokenize_eq_ok_iff, htext.scan hwords]
  have hget : Token.ofWord "GET".toList = .keyword .get := hkeyword .get
  have hwhere : Token.ofWord "WHERE".toList = .keyword .where := hkeyword .where
  have hin : Token.ofWord "IN".toList = .keyword .in := hkeyword .in
  simp only [conditionWords, conditionStart, inTable, List.map_append, List.map_cons, List.map_nil,
    hget, hwhere, hcolumn.ofWord, hkeyword comparator.keyword, hin, htable.ofWord,
    List.cons_append, List.append_assoc, List.nil_append]

/-- A bare value without keywords is all of its words with single spaces between them. A word that
is a keyword ends it, so that the query is refused: for want of a value if the word is the first,
and else for the table that is expected there. -/
theorem parse_bareValue {column table : String} (hcolumn : Name.check column = .ok ())
    (htable : Name.check table = .ok ()) (comparator : Comparator) {value : List String}
    (hne : value ≠ []) (hvalue : ∀ w ∈ value, IsBareWord w)
    (hends : ∀ w ∈ value, Text.upper w ∉ ["AND", "IN", "TO"]) {text : String}
    (htext : Spaced (conditionWords column comparator value table) text.toList) :
    ((∀ w ∈ value, Keyword.ofWord? w = none) →
      Query.parse text = .ok (.get table (.dependencies
        [{ column, comparator, value := .bare (" ".intercalate value) }]))) ∧
    ∀ before w after k, value = before ++ w :: after →
      (∀ w ∈ before, Keyword.ofWord? w = none) → Keyword.ofWord? w = some k →
        Query.parse text = .error
          (if before = [] then .missingValue column else .unexpectedToken "IN" k.text) := by
  have htokens := tokenize_conditionWords hcolumn htable comparator hvalue htext
  rw [Query.parse, htokens]
  constructor
  · intro hwords
    rw [map_ofWord hwords]
    exact ofTokens_words column table comparator hne
  · rintro before w after k rfl hbefore hw
    have hk : Text.upper w = k.text := ofWord?_eq_some_iff.1 hw
    have hends := hends w (List.mem_append_right _ List.mem_cons_self)
    rw [hk] at hends
    have hand : k ≠ .and := by
      rintro rfl
      exact hends (by decide)
    have hin : k ≠ .in := by
      rintro rfl
      exact hends (by decide)
    rw [List.map_append, List.map_cons, map_ofWord hbefore, ofWord_eq_keyword hw,
      List.append_assoc, List.cons_append]
    exact ofTokens_cut column comparator before hand hin _

/-- A value of two words is read. With a word between them that is a comparator elsewhere, the query
is refused. -/
theorem parse_bareValue_foo_bar :
    Query.parse "GET WHERE Name IS Foo Bar IN T" = .ok (.get "T" (.dependencies
        [{ column := "Name", comparator := .equals, value := .bare "Foo Bar" }])) ∧
      Query.parse "GET WHERE Name IS Foo not Bar IN T" =
        .error (.unexpectedToken "IN" "NOT") := by
  have hvalue (ws : List String) (hne : ws ≠ []) (hws : ∀ w ∈ ws, IsBareWord w)
      (hends : ∀ w ∈ ws, Text.upper w ∉ ["AND", "IN", "TO"]) :=
    @parse_bareValue "Name" "T" rfl rfl .equals ws hne hws hends _ (spaced_intercalate _)
  constructor
  · exact (hvalue ["Foo", "Bar"] (by decide) (by decide +kernel) (by decide)).1 (by decide)
  · exact (hvalue ["Foo", "not", "Bar"] (by decide) (by decide +kernel) (by decide)).2
      ["Foo"] "not" ["Bar"] .not rfl (by decide) (by decide)

/-- None of the words of this value may follow a value, but the first one is a keyword. -/
theorem parse_bareValue_get_out :
    Name.check "Title" = .ok () ∧ Name.check "Films" = .ok () ∧
      (∀ w ∈ ["Get", "Out"], IsBareWord w ∧ Text.upper w ∉ ["AND", "IN", "TO"]) ∧
      Spaced (conditionWords "Title" .equals ["Get", "Out"] "Films")
        "GET WHERE Title IS Get Out IN Films".toList ∧
      Query.parse "GET WHERE Title IS Get Out IN Films" = .error (.missingValue "Title") :=
  ⟨rfl, rfl, by decide +kernel, spaced_intercalate _, by decide +kernel⟩

end RecordStore

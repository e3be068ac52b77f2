import RecordStore.Proofs.Query.Grammar
import RecordStore.Proofs.Token.Spelling
import RecordStore.Query.Printer

/-!
# Queries that are read back as they were written

A query written as text is read as the same query exactly if each of its names and values stands
for itself where it is written. What is written is lexed part by part into tokens that the grammar
takes for the same parts; and whatever the parser accepts has names and values that stand for
themselves, since the lexer finds no others.

- `Query.Expressible`: every name and value stands for itself;
- `spells_…`, `lexes_…`: the tokens that an expressible part is written with;
- `…_of_lexed`: parts that were lexed are expressible;
- `parse_render_eq_ok_iff`: the main result.
-/

namespace RecordStore

open Text (isBlank)
open Token (isQuote isSymbol inWord inValue scan)

/-! ## What can be written -/

/-- A literal that stands for itself between brackets. -/
def Literal.IsListed (l : Literal) : Prop := if l.quoted then IsQuotable l.text else IsValue l.text

/-- Words with single spaces between them, at least one. -/
def IsWords (text : String) : Prop :=
  ∃ ws : List String, ws ≠ [] ∧ (∀ w ∈ ws, IsWord w) ∧ text = " ".intercalate ws

/-- A literal that stands for itself in a condition. -/
def Literal.IsCompared (l : Literal) : Prop :=
  if l.quoted then IsQuotable l.text else IsWords l.text

/-- A condition whose column and value stand for themselves. -/
def Dependency.Expressible (d : Dependency) : Prop := IsWord d.column ∧ d.value.IsCompared

/-- A target whose id or conditions stand for themselves. -/
def Target.Expressible : Target → Prop
  | .entry id => IsWord id
  | .dependencies conditions => ∀ d ∈ conditions, d.Expressible

/-- A list of values that is not empty and whose members stand for themselves. -/
def ListExpressible (values : List Literal) : Prop := values ≠ [] ∧ ∀ l ∈ values, l.IsListed

/-- A query in which every name and value stands for itself. -/
def Query.Expressible : Query → Prop
  | .add table values => IsWord table ∧ ListExpressible values
  | .remove table target => IsWord table ∧ target.Expressible
  | .get table target => IsWord table ∧ target.Expressible
  | .set table target values => IsWord table ∧ target.Expressible ∧ ListExpressible values
  | .drop table => IsWord table

/-! ## Literals -/

theorem scan_quotable {text : String} (h : IsQuotable text) (depth : Nat) (after : List Char) :
    scan depth ((Literal.ofQuoted text).render.toList ++ after) =
      (scan depth after).map (.quoted text :: ·) := by
  rw [Literal.render]
  simp only [Literal.ofQuoted, Bool.not_true, Bool.false_eq_true, if_false, List.contains_iff_mem]
  -- a text is written between double quotes only if it holds a single one
  split
  · next hsingle =>
    have hdouble : '"' ∉ text.toList := fun hmem => h ⟨hsingle, hmem⟩
    have := scan_quoted (q := '"') (by decide) hdouble depth after
    rw [String.ofList_toList] at this
    simpa using this
  · next hsingle =>
    have := scan_quoted (q := '\'') (by decide) hsingle depth after
    rw [String.ofList_toList] at this
    simpa using this

theorem scan_bare {v : String} (h : IsValue v) {depth : Nat} (hdepth : 0 < depth)
    {after : List Char} (hafter : Stops inValue after) :
    scan depth (v.toList ++ after) = (scan depth after).map (.word v :: ·) := by
  obtain ⟨c, run, hv⟩ := List.exists_cons_of_ne_nil h.ne_nil
  have hplain := h.inValue
  have hstart := h.start
  rw [hv] at hplain hstart
  obtain ⟨hc, hrun⟩ := List.forall_mem_cons.1 hplain
  obtain ⟨hblank, hopen, hquote⟩ := hstart c rfl
  simp only [inValue, Bool.and_eq_true, bne_iff_ne] at hc
  have hstarts : Starts c := .of_not (Bool.eq_false_iff.1 hblank) hopen hc.2 hc.1
    (Bool.eq_false_iff.1 hquote)
  rw [hv, List.cons_append, scan_value hstarts hdepth hrun hafter, ← hv, trimEnd_of_stop h.stop,
    String.ofList_toList]

/-- A literal between brackets becomes its token if a comma or a closing bracket follows. -/
theorem scan_literal {l : Literal} (h : l.IsListed) {depth : Nat} (hdepth : 0 < depth)
    {after : List Char} (hafter : Stops inValue after) :
    scan depth (l.render.toList ++ after) = (scan depth after).map (l.token :: ·) := by
  obtain ⟨text, quoted⟩ := l
  cases quoted with
  | true => exact scan_quotable h depth after
  | false => exact scan_bare h hdepth hafter

/-! ## What an expressible query is written with -/

theorem lexes_literal_comma {l : Literal} (h : l.IsListed) (depth : Nat) :
    Lexes (depth + 1) (l.render.toList ++ [',', ' ']) [l.token, .comma] (depth + 1) := by
  intro rest
  have hstops : Stops inValue (',' :: ' ' :: rest) := by
    rintro c ⟨⟩
    rfl
  rw [List.append_assoc, List.cons_append, List.singleton_append,
    scan_literal h (Nat.succ_pos depth) hstops, scan_comma, scan_blank (by decide), map_map]
  rfl

theorem lexes_literal_close {l : Literal} (h : l.IsListed) (depth : Nat) :
    Lexes (depth + 1) (l.render.toList ++ [']']) [l.token, .rightBracket] depth := by
  intro rest
  have hstops : Stops inValue (']' :: rest) := by
    rintro c ⟨⟩
    rfl
  rw [List.append_assoc, List.singleton_append, scan_literal h (Nat.succ_pos depth) hstops,
    scan_close, map_map]
  rfl

theorem lexes_listTail {values : List Literal} (h : ListExpressible values) (depth : Nat) :
    Lexes (depth + 1) ((", ".intercalate (values.map Literal.render)).toList ++ [']'])
      (listTail values) depth := by
  obtain ⟨hne, hvalues⟩ := h
  induction values with
  | nil => exact absurd rfl hne
  | cons l values ih =>
    obtain ⟨hl, hvalues⟩ := List.forall_mem_cons.1 hvalues
    cases values with
    | nil =>
      rw [List.map_singleton, String.intercalate_singleton]
      exact lexes_literal_close hl depth
    | cons v values =>
      have h := (lexes_literal_comma hl depth).append (ih (List.cons_ne_nil v values) hvalues)
      rw [listTail_cons_cons, List.map_cons, List.map_cons, String.intercalate_cons_cons]
      simpa using h

theorem lexes_renderValues {values : List Literal} (h : ListExpressible values) :
    Lexes 0 (renderValues values).toList (listTokens values) 0 := by
  have h := (lexes_open 0).append (lexes_listTail h 0)
  simpa [renderValues, listTokens, listTail] using h

theorem lexes_words {ws : List String} (hne : ws ≠ []) (h : ∀ w ∈ ws, IsWord w) :
    Lexes 0 ((" ".intercalate ws).toList ++ [' ']) (ws.map .word) 0 := by
  induction ws with
  | nil => exact absurd rfl hne
  | cons w ws ih =>
    obtain ⟨hw, hws⟩ := List.forall_mem_cons.1 h
    cases ws with
    | nil =>
      rw [String.intercalate_singleton]
      exact lexes_word hw
    | cons w' ws =>
      have h := (lexes_word hw).append (ih (List.cons_ne_nil w' ws) hws)
      rw [String.intercalate_cons_cons]
      simpa using h

theorem spells_value {l : Literal} (h : l.IsCompared) :
    ∃ ts, SpellsValue ts l ∧ Lexes 0 (l.render.toList ++ [' ']) ts 0 := by
  obtain ⟨text, quoted⟩ := l
  cases quoted with
  | true =>
    refine ⟨_, .quoted text, ?_⟩
    intro rest
    rw [List.append_assoc, List.singleton_append]
    exact (scan_quotable h 0 _).trans (by rw [scan_blank (by decide)]; rfl)
  | false =>
    obtain ⟨ws, hne, hws, rfl⟩ : IsWords text := h
    exact ⟨_, .words hne, lexes_words hne hws⟩

theorem spells_dependency {d : Dependency} (h : d.Expressible) :
    ∃ ts, SpellsDependency ts d ∧ Lexes 0 (d.render.toList ++ [' ']) ts 0 := by
  obtain ⟨column, comparator, value⟩ := d
  obtain ⟨hcolumn, hvalue⟩ : IsWord column ∧ value.IsCompared := h
  obtain ⟨ts, hts, hlexes⟩ := spells_value hvalue
  have h := ((lexes_word hcolumn).append (lexes_keyword comparator.keyword)).append hlexes
  refine ⟨_, .mk column comparator hts, ?_⟩
  simpa [Dependency.render] using h

theorem spells_dependencies {ds : List Dependency} (hne : ds ≠ [])
    (h : ∀ d ∈ ds, d.Expressible) :
    ∃ ts, SpellsDependencies ts ds ∧
      Lexes 0 ((" AND ".intercalate (ds.map Dependency.render)).toList ++ [' ']) ts 0 := by
  induction ds with
  | nil => exact absurd rfl hne
  | cons d ds ih =>
    obtain ⟨hd, hds⟩ := List.forall_mem_cons.1 h
    obtain ⟨ts, hts, hlexes⟩ := spells_dependency hd
    cases ds with
    | nil =>
      refine ⟨ts, .one hts, ?_⟩
      rw [List.map_singleton, String.intercalate_singleton]
      exact hlexes
    | cons d' ds =>
      obtain ⟨more, hmore, hlexesMore⟩ := ih (List.cons_ne_nil d' ds) hds
      have h := (hlexes.append (lexes_keyword .and)).append hlexesMore
      refine ⟨_, .and hts hmore, ?_⟩
      rw [List.map_cons, List.map_cons, String.intercalate_cons_cons]
      simpa [Keyword.text] using h

theorem spells_target {target : Target} (h : target.Expressible) :
    ∃ ts, SpellsTarget ts target ∧ Lexes 0 target.renderSpaced.toList ts 0 := by
  match target with
  | .entry id =>
    have h := (lexes_keyword .entry).append (lexes_word h)
    exact ⟨_, .word id, by simpa [Target.renderSpaced, Target.render, Keyword.text] using h⟩
  | .dependencies [] => exact ⟨[], .all, lexes_blanks (List.forall_mem_nil _) 0⟩
  | .dependencies (d :: ds) =>
    obtain ⟨ts, hts, hlexes⟩ := spells_dependencies (List.cons_ne_nil d ds) h
    have h := (lexes_keyword .where).append hlexes
    refine ⟨_, .conditions hts, ?_⟩
    simpa [Target.renderSpaced, Target.render, Keyword.text] using h

theorem lexes_inTable {table : String} (h : IsWord table) :
    Lexes 0 ("IN ".toList ++ (table.toList ++ [' '])) (inTable table) 0 :=
  (lexes_keyword .in).append (lexes_word h)

/-- An expressible query is written with tokens that spell it. -/
theorem spells_query {q : Query} (h : q.Expressible) :
    ∃ ts, Spells ts q ∧ Lexes 0 (q.render.toList ++ [' ']) ts 0 := by
  have hblank : Lexes 0 [' '] [] 0 := lexes_blanks (List.forall_mem_singleton.2 (by decide)) 0
  cases q with
  | add table values =>
    obtain ⟨htable, hvalues⟩ := h
    have h := (((lexes_keyword .add).append (lexes_renderValues hvalues)).append hblank).append
      (lexes_inTable htable)
    refine ⟨_, .add table hvalues.1, ?_⟩
    simpa [Query.render, Keyword.text] using h
  | remove table target =>
    obtain ⟨htable, htarget⟩ := h
    obtain ⟨ts, hts, hlexes⟩ := spells_target htarget
    have h := ((lexes_keyword .remove).append hlexes).append (lexes_inTable htable)
    refine ⟨_, .remove table hts, ?_⟩
    simpa [Query.render, Keyword.text] using h
  | get table target =>
    obtain ⟨htable, htarget⟩ := h
    obtain ⟨ts, hts, hlexes⟩ := spells_target htarget
    have h := ((lexes_keyword .get).append hlexes).append (lexes_inTable htable)
    refine ⟨_, .get table hts, ?_⟩
    simpa [Query.render, Keyword.text] using h
  | set table target values =>
    obtain ⟨htable, htarget, hvalues⟩ := h
    obtain ⟨ts, hts, hlexes⟩ := spells_target htarget
    have h := (((((lexes_keyword .set).append hlexes).append (lexes_keyword .to)).append
      (lexes_renderValues hvalues)).append hblank).append (lexes_inTable htable)
    refine ⟨_, .set table hts hvalues.1, ?_⟩
    simpa [Query.render, Keyword.text] using h
  | drop table =>
    refine ⟨_, .drop table, ?_⟩
    have h := (lexes_keyword .drop).append (lexes_word h)
    simpa [Query.render, Keyword.text] using h

/-! ## What was lexed stands for itself -/

theorem Lexed.word_inv {w : String} {ts : List Token} (h : Lexed 0 (.word w :: ts)) :
    IsWord w ∧ Lexed 0 ts := by
  cases h with
  | value hdepth _ _ _ => exact absurd hdepth (Nat.lt_irrefl 0)
  | word hw h => exact ⟨hw, h⟩

theorem Lexed.keyword_inv {k : Keyword} {depth : Nat} {ts : List Token}
    (h : Lexed depth (.keyword k :: ts)) : Lexed 0 ts := by
  cases h with
  | keyword h => exact h

theorem Lexed.token_inv {l : Literal} {depth : Nat} {ts : List Token}
    (h : Lexed (depth + 1) (l.token :: ts)) : l.IsListed ∧ Lexed (depth + 1) ts := by
  obtain ⟨text, quoted⟩ := l
  cases quoted with
  | true => cases h with | quoted htext h => exact ⟨htext, h⟩
  | false => cases h with | value _ hv _ h => exact ⟨hv, h⟩

theorem Lexed.listTail_inv {values : List Literal} {depth : Nat} {rest : List Token}
    (hne : values ≠ []) (h : Lexed (depth + 1) (listTail values ++ rest)) :
    (∀ l ∈ values, l.IsListed) ∧ Lexed depth rest := by
  induction values with
  | nil => exact absurd rfl hne
  | cons l values ih =>
    cases values with
    | nil =>
      have h : Lexed (depth + 1) (l.token :: .rightBracket :: rest) := h
      obtain ⟨hl, h⟩ := h.token_inv
      cases h with
      | rightBracket h => exact ⟨List.forall_mem_singleton.2 hl, h⟩
    | cons v values =>
      rw [listTail_cons_cons] at h
      obtain ⟨hl, h⟩ := h.token_inv
      cases h with
      | comma h =>
        obtain ⟨hvalues, hrest⟩ := ih (List.cons_ne_nil v values) h
        exact ⟨List.forall_mem_cons.2 ⟨hl, hvalues⟩, hrest⟩

theorem Lexed.listTokens_inv {values : List Literal} {rest : List Token} (hne : values ≠ [])
    (h : Lexed 0 (listTokens values ++ rest)) : ListExpressible values ∧ Lexed 0 rest := by
  cases h with
  | leftBracket h =>
    obtain ⟨hvalues, hrest⟩ := Lexed.listTail_inv hne h
    exact ⟨⟨hne, hvalues⟩, hrest⟩

theorem Lexed.words_inv {ws : List String} {rest : List Token}
    (h : Lexed 0 (ws.map .word ++ rest)) : (∀ w ∈ ws, IsWord w) ∧ Lexed 0 rest := by
  induction ws with
  | nil => exact ⟨List.forall_mem_nil _, h⟩
  | cons w ws ih =>
    obtain ⟨hw, h⟩ := Lexed.word_inv h
    obtain ⟨hws, hrest⟩ := ih h
    exact ⟨List.forall_mem_cons.2 ⟨hw, hws⟩, hrest⟩

theorem value_of_lexed {ts rest : List Token} {l : Literal} (hl : SpellsValue ts l)
    (h : Lexed 0 (ts ++ rest)) : l.IsCompared ∧ Lexed 0 rest := by
  cases hl with
  | quoted text => cases h with | quoted htext h => exact ⟨htext, h⟩
  | words hne =>
    obtain ⟨hws, hrest⟩ := h.words_inv
    exact ⟨⟨_, hne, hws, rfl⟩, hrest⟩

theorem dependency_of_lexed {ts rest : List Token} {d : Dependency} (hd : SpellsDependency ts d)
    (h : Lexed 0 (ts ++ rest)) : d.Expressible ∧ Lexed 0 rest := by
  cases hd with
  | mk column comparator hvalue =>
    obtain ⟨hcolumn, h⟩ := Lexed.word_inv h
    cases h with
    | keyword h =>
      obtain ⟨hvalue, hrest⟩ := value_of_lexed hvalue h
      exact ⟨⟨hcolumn, hvalue⟩, hrest⟩

theorem dependencies_of_lexed {ts rest : List Token} {ds : List Dependency}
    (hds : SpellsDependencies ts ds) (h : Lexed 0 (ts ++ rest)) :
    (∀ d ∈ ds, d.Expressible) ∧ Lexed 0 rest := by
  induction hds with
  | one hd =>
    obtain ⟨hd, hrest⟩ := dependency_of_lexed hd h
    exact ⟨List.forall_mem_singleton.2 hd, hrest⟩
  | and hd _ ih =>
    rw [List.append_assoc, List.cons_append] at h
    obtain ⟨hd, h⟩ := dependency_of_lexed hd h
    cases h with
    | keyword h =>
      obtain ⟨hds, hrest⟩ := ih h
      exact ⟨List.forall_mem_cons.2 ⟨hd, hds⟩, hrest⟩

theorem inTable_of_lexed {table : String} {rest : List Token}
    (h : Lexed 0 (inTable table ++ rest)) : IsWord table :=
  (Lexed.word_inv (Lexed.keyword_inv h)).1

/-! ## An id is not written between quotes -/

theorem ofWord_ne_quoted (cs : List Char) (text : String) : Token.ofWord cs ≠ .quoted text := by
  unfold Token.ofWord
  dsimp only
  split <;> simp

/-- A text that starts with a quoted value starts with a quote that does not occur in the value. -/
theorem notMem_of_scan_quoted {c : Char} (hc : isBlank c = false) {cs : List Char} {text : String}
    {ts : List Token} (h : scan 0 (c :: cs) = .ok (.quoted text :: ts)) : c ∉ text.toList := by
  by_cases hquote : isQuote c = true
  · by_cases hmem : c ∈ cs
    · obtain ⟨before, after, rfl, hbefore⟩ := List.eq_append_cons_of_mem hmem
      rw [scan_quoted hquote hbefore] at h
      obtain ⟨_, _, h⟩ := map_eq_ok_iff.1 h
      cases h
      rwa [String.toList_ofList]
    · rw [scan_unclosed hquote hmem] at h
      cases h
  -- every other first character gives a token of another kind
  · by_cases hsymbol : isSymbol c = true
    · simp only [isSymbol, Bool.or_eq_true, beq_iff_eq] at hsymbol
      rcases hsymbol with (rfl | rfl) | rfl
      · rw [scan_open] at h
        obtain ⟨_, _, h⟩ := map_eq_ok_iff.1 h
        cases h
      · rw [scan_close] at h
        obtain ⟨_, _, h⟩ := map_eq_ok_iff.1 h
        cases h
      · rw [scan_comma] at h
        obtain ⟨_, _, h⟩ := map_eq_ok_iff.1 h
        cases h
    · have hstarts : Starts c := ⟨hc, Bool.eq_false_iff.2 hsymbol, Bool.eq_false_iff.2 hquote⟩
      have hword := scan_word hstarts (forall_mem_takeWhile inWord cs) (stops_dropWhile inWord cs)
      rw [List.takeWhile_append_dropWhile] at hword
      rw [hword] at h
      obtain ⟨_, _, h⟩ := map_eq_ok_iff.1 h
      exact absurd (List.cons.inj h).1 (ofWord_ne_quoted _ text)

/-- An id is written without quotes, so it cannot be lexed as a quoted value: the quote around the
value would be one of its characters. -/
theorem scan_id_ne_quoted (id : String) (k : Keyword) (cs : List Char) (ts : List Token) :
    scan 0 (id.toList ++ ' ' :: (k.text.toList ++ ' ' :: cs)) ≠ .ok (.quoted id :: ts) := by
  intro h
  have hsplit := List.takeWhile_append_dropWhile (p := isBlank) (l := id.toList)
  have hstops := stops_dropWhile isBlank id.toList
  rw [← hsplit, List.append_assoc, scan_blanks (forall_mem_takeWhile isBlank id.toList)] at h
  cases hdrop : id.toList.dropWhile isBlank with
  -- a blank id lets the next keyword take its place
  | nil =>
    have hk := lexes_keyword k cs
    rw [List.append_assoc, List.singleton_append] at hk
    rw [hdrop, List.nil_append, scan_blank (by decide), hk] at h
    obtain ⟨_, _, h⟩ := map_eq_ok_iff.1 h
    cases h
  | cons c run =>
    rw [hdrop] at h hstops hsplit
    refine notMem_of_scan_quoted (hstops c rfl) h ?_
    rw [← hsplit]
    exact List.mem_append_right _ List.mem_cons_self

/-- The target of a statement that was lexed as it was written. -/
theorem target_of_scan {k k' : Keyword} {target : Target} {cs : List Char} {ts rest : List Token}
    (htarget : SpellsTarget ts target)
    (h : scan 0 (k.text.toList ++ ' ' :: (target.renderSpaced.toList ++
      (k'.text.toList ++ ' ' :: cs))) = .ok (.keyword k :: (ts ++ rest))) :
    target.Expressible ∧ Lexed 0 rest := by
  have hlexed := lexed_of_scan h
  cases hlexed with
  | keyword hlexed =>
    cases htarget with
    | all => exact ⟨List.forall_mem_nil _, hlexed⟩
    | word id =>
      cases hlexed with
      | keyword hlexed => exact Lexed.word_inv hlexed
    -- the grammar allows quotes around an id, but what was written has none
    | quoted id =>
      have hwritten : k.text.toList ++ ' ' :: ((Target.entry id).renderSpaced.toList ++
            (k'.text.toList ++ ' ' :: cs)) =
          k.text.toList ++ [' '] ++ (Keyword.entry.text.toList ++ [' ']) ++
            (id.toList ++ ' ' :: (k'.text.toList ++ ' ' :: cs)) := by
        simp [Target.renderSpaced, Target.render, Keyword.text]
      rw [hwritten, (lexes_keyword k).append (lexes_keyword .entry)] at h
      obtain ⟨ts, hts, h⟩ := map_eq_ok_iff.1 h
      cases h
      exact absurd hts (scan_id_ne_quoted id k' cs _)
    | conditions hds =>
      cases hlexed with
      | keyword hlexed => exact dependencies_of_lexed hds hlexed

/-- The target and the table of a statement that was lexed as it was written. -/
theorem targetInTable_of_scan {k : Keyword} {target : Target} {table : String}
    {ts rest : List Token} (htarget : SpellsTarget ts target)
    (h : scan 0 (k.text.toList ++ ' ' :: (target.renderSpaced.toList ++
      (Keyword.in.text.toList ++ ' ' :: table.toList))) =
        .ok (.keyword k :: (ts ++ inTable table) ++ rest)) :
    IsWord table ∧ target.Expressible := by
  rw [List.cons_append, List.append_assoc] at h
  obtain ⟨htarget, hlexed⟩ := target_of_scan htarget h
  exact ⟨inTable_of_lexed hlexed, htarget⟩

/-- A query that was lexed as it was written and is spelled by its tokens is expressible. -/
theorem expressible_of_scan {q : Query} {ts rest : List Token} (hq : Spells ts q)
    (h : scan 0 q.render.toList = .ok (ts ++ rest)) : q.Expressible := by
  have hlexed := lexed_of_scan h
  cases hq with
  | add table hne =>
    rw [List.cons_append, List.append_assoc] at hlexed
    obtain ⟨hvalues, hlexed⟩ := hlexed.keyword_inv.listTokens_inv hne
    exact ⟨inTable_of_lexed hlexed, hvalues⟩
  | @remove table ts target htarget =>
    refine @targetInTable_of_scan .remove target table ts rest htarget ?_
    rw [← h]
    simp [Query.render, Keyword.text]
  | @get table ts target htarget =>
    refine @targetInTable_of_scan .get target table ts rest htarget ?_
    rw [← h]
    simp [Query.render, Keyword.text]
  | @set table ts target values htarget hne =>
    have hwritten : (Query.set table target values).render.toList = Keyword.set.text.toList ++
        ' ' :: (target.renderSpaced.toList ++ (Keyword.to.text.toList ++
          ' ' :: (renderValues values ++ " IN " ++ table).toList)) := by
      simp [Query.render, Keyword.text]
    rw [hwritten, List.cons_append, List.append_assoc] at h
    obtain ⟨htarget, hlexed⟩ := target_of_scan htarget h
    rw [List.cons_append, List.append_assoc] at hlexed
    obtain ⟨hvalues, hlexed⟩ := hlexed.keyword_inv.listTokens_inv hne
    exact ⟨inTable_of_lexed hlexed, htarget, hvalues⟩
  | drop table => exact (Lexed.word_inv hlexed.keyword_inv).1

/-- Writing a query and reading it again gives back the query exactly if every name and value in it
stands for itself. -/
theorem parse_render_eq_ok_iff (q : Query) : Query.parse q.render = .ok q ↔ q.Expressible := by
  constructor
  · intro h
    obtain ⟨tokens, htokens, h⟩ := bind_eq_ok_iff.1 h
    obtain ⟨ts, rest, hts, rfl, -⟩ := ofTokens_eq_ok_iff.1 h
    exact expressible_of_scan hts (tokenize_eq_ok_iff.1 htokens)
  · intro h
    obtain ⟨ts, hts, hlexes⟩ := spells_query h
    -- the last word of the text has no blank after it, and needs none
    have hscan : scan 0 q.render.toList = .ok (ts ++ [.endOfInput]) := by
      have hspaced := hlexes []
      rw [List.append_nil, scan] at hspaced
      rw [← scan?_eq_some_iff, ← scan?_append_blank (b := ' ') (by decide), scan?_eq_some_iff]
      exact hspaced
    refine bind_eq_ok_iff.2 ⟨_, tokenize_eq_ok_iff.2 hscan, ?_⟩
    exact ofTokens_eq_ok_iff.2 ⟨ts, _, hts, rfl, rfl⟩

end RecordStore

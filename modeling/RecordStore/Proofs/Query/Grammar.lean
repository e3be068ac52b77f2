import Mathlib.Data.List.Basic
import RecordStore.Query.Parser

/-!
# The grammar of the query language

The grammar as a relation between tokens and what they spell, part by part. The readers take the
tokens of a part from the front of a list exactly if the grammar says that they spell it.

- `SpellsValue`, `SpellsDependency`, `SpellsDependencies`, `SpellsTarget`, `Spells`: the grammar;
- `…_of_spells`: what is spelled is read, if what follows cannot be taken for a part of it;
- `spells_of_…`: what is read was spelled by the tokens that are gone;
- `ofTokens_eq_ok_iff`: a list of tokens is read as a query if its tokens up to the end of the input
  spell that query;
- `ofTokens_endOfInput_eq_ok_iff`: with one end of the input behind the list, all of its tokens.
-/

namespace RecordStore

open TokenReader

/-- The token that spells a literal. -/
def Literal.token (l : Literal) : Token := if l.quoted then .quoted l.text else .word l.text

/-- Values with commas between them, between brackets. -/
def listTokens (values : List Literal) : List Token :=
  .leftBracket :: (values.map Literal.token).intersperse .comma ++ [.rightBracket]

/-- The value of a condition: a quoted value, or one or more words. -/
inductive SpellsValue : List Token → Literal → Prop where
  | quoted (text : String) : SpellsValue [.quoted text] (.ofQuoted text)
  | words {ws : List String} (h : ws ≠ []) :
    SpellsValue (ws.map .word) (.bare (" ".intercalate ws))

/-- One condition: column, comparator and value. -/
inductive SpellsDependency : List Token → Dependency → Prop where
  | mk (column : String) (comparator : Comparator) {ts : List Token} {value : Literal}
    (h : SpellsValue ts value) :
    SpellsDependency (.word column :: .keyword comparator.keyword :: ts)
      { column, comparator, value }

/-- One or more conditions with `AND` between them. -/
inductive SpellsDependencies : List Token → List Dependency → Prop where
  | one {ts : List Token} {d : Dependency} (h : SpellsDependency ts d) : SpellsDependencies ts [d]
  | and {ts more : List Token} {d : Dependency} {ds : List Dependency}
    (h : SpellsDependency ts d) (hmore : SpellsDependencies more ds) :
    SpellsDependencies (ts ++ .keyword .and :: more) (d :: ds)

/-- The target of a statement; nothing means every entry. -/
inductive SpellsTarget : List Token → Target → Prop where
  | all : SpellsTarget [] .all
  | word (id : String) : SpellsTarget [.keyword .entry, .word id] (.entry id)
  | quoted (id : String) : SpellsTarget [.keyword .entry, .quoted id] (.entry id)
  | conditions {ts : List Token} {ds : List Dependency} (h : SpellsDependencies ts ds) :
    SpellsTarget (.keyword .where :: ts) (.dependencies ds)

/-- `IN` and the name of a table. -/
def inTable (table : String) : List Token := [.keyword .in, .word table]

/-- One statement. -/
inductive Spells : List Token → Query → Prop where
  | add (table : String) {values : List Literal} (h : values ≠ []) :
    Spells (.keyword .add :: (listTokens values ++ inTable table)) (.add table values)
  | remove (table : String) {ts : List Token} {target : Target} (h : SpellsTarget ts target) :
    Spells (.keyword .remove :: (ts ++ inTable table)) (.remove table target)
  | get (table : String) {ts : List Token} {target : Target} (h : SpellsTarget ts target) :
    Spells (.keyword .get :: (ts ++ inTable table)) (.get table target)
  | set (table : String) {ts : List Token} {target : Target} {values : List Literal}
    (h : SpellsTarget ts target) (hvalues : values ≠ []) :
    Spells (.keyword .set :: (ts ++ .keyword .to :: (listTokens values ++ inTable table)))
      (.set table target values)
  | drop (table : String) : Spells [.keyword .drop, .word table] (.drop table)

/-- Two readers one after the other succeed if both do. -/
theorem reader_bind_eq_ok_iff {α β : Type} {x : TokenReader α} {f : α → TokenReader β}
    {ts rest : List Token} {b : β} :
    (x >>= f) ts = .ok b rest ↔ ∃ a mid, x ts = .ok a mid ∧ f a mid = .ok b rest := by
  simp only [bind, EStateM.bind]
  cases x ts with
  | ok a mid =>
    constructor
    · intro h
      exact ⟨a, mid, rfl, h⟩
    · rintro ⟨_, _, ⟨⟩, h⟩
      exact h
  | error e mid => simp

/-! ## Words and values -/

theorem literal?_eq_some_iff {t : Token} {l : Literal} : literal? t = some l ↔ t = l.token := by
  obtain ⟨text, quoted⟩ := l
  cases t <;> cases quoted <;> simp [literal?, Literal.token, Literal.bare, Literal.ofQuoted]

theorem literal?_token (l : Literal) : literal? l.token = some l := literal?_eq_some_iff.2 rfl

/-- The list does not start with a word. -/
def NoWord (ts : List Token) : Prop := ∀ w, ts.head? ≠ some (.word w)

theorem noWord_keyword (k : Keyword) (rest : List Token) : NoWord (.keyword k :: rest) := by
  simp [NoWord]

theorem words_append {rest : List Token} (h : NoWord rest) (ws : List String) :
    words (ws.map .word ++ rest) = (ws, rest) := by
  induction ws with
  | nil =>
    rw [List.map_nil, List.nil_append]
    unfold words
    split
    · next w ts => exact absurd rfl (h w)
    · rfl
  | cons w ws ih => rw [List.map_cons, List.cons_append, words, ih]

theorem append_words (ts : List Token) : (words ts).1.map .word ++ (words ts).2 = ts := by
  fun_induction words ts with
  | case1 w ts rest left h ih =>
    rw [h] at ih
    rw [List.map_cons, List.cons_append, ih]
  | case2 ts => rfl

theorem conditionValue_of_spells {ts rest : List Token} {value : Literal}
    (h : SpellsValue ts value) (hrest : NoWord rest) (column : String) :
    conditionValue column (ts ++ rest) = .ok value rest := by
  cases h with
  | quoted text => rfl
  -- the first word is taken before the others are looked for
  | @words ws hne =>
    obtain ⟨w, ws, rfl⟩ := List.exists_cons_of_ne_nil hne
    simp only [List.map_cons, List.cons_append, conditionValue, words_append hrest]

theorem spells_of_conditionValue {column : String} {ts rest : List Token} {value : Literal}
    (h : conditionValue column ts = .ok value rest) :
    ∃ pre, SpellsValue pre value ∧ ts = pre ++ rest := by
  unfold conditionValue at h
  split at h
  · cases h
    exact ⟨_, .quoted _, rfl⟩
  · next w ts =>
    cases h
    refine ⟨_, .words (List.cons_ne_nil w _), ?_⟩
    rw [List.map_cons, List.cons_append, append_words]
  · cases h

/-! ## Conditions -/

theorem comparator_of_keyword (c : Comparator) (rest : List Token) :
    comparator (.keyword c.keyword :: rest) = .ok c rest := by
  simp [comparator, front]

theorem dependency_of_spells {ts rest : List Token} {d : Dependency} (h : SpellsDependency ts d)
    (hrest : NoWord rest) : dependency (ts ++ rest) = .ok d rest := by
  cases h with
  | mk column c h =>
    refine reader_bind_eq_ok_iff.2 ⟨column, _, rfl, ?_⟩
    refine reader_bind_eq_ok_iff.2 ⟨c, _, comparator_of_keyword c _, ?_⟩
    exact reader_bind_eq_ok_iff.2 ⟨_, _, conditionValue_of_spells h hrest column, rfl⟩

theorem column_eq_ok_iff {ts rest : List Token} {name : String} :
    column ts = .ok name rest ↔ ts = .word name :: rest := by
  unfold column
  split
  · simp
  · next h =>
    constructor
    · intro hfail
      cases hfail
    · intro hts
      exact absurd hts (h name rest)

theorem keyword_of_ofKeyword? {k : Keyword} {c : Comparator}
    (h : Comparator.ofKeyword? k = some c) : k = c.keyword := by
  cases k <;> cases h <;> rfl

theorem spells_of_comparator {ts rest : List Token} {c : Comparator}
    (h : comparator ts = .ok c rest) : ts = .keyword c.keyword :: rest := by
  cases ts with
  | nil => cases h
  | cons t ts =>
    unfold comparator at h
    split at h
    · next k hfront =>
      split at h
      · next c' hc =>
        cases h
        rw [← keyword_of_ofKeyword? hc, ← hfront]
        rfl
      · cases h
    · cases h
    · cases h

theorem spells_of_dependency {ts rest : List Token} {d : Dependency}
    (h : dependency ts = .ok d rest) : ∃ pre, SpellsDependency pre d ∧ ts = pre ++ rest := by
  obtain ⟨name, ts₁, hname, h⟩ := reader_bind_eq_ok_iff.1 h
  obtain ⟨c, ts₂, hc, h⟩ := reader_bind_eq_ok_iff.1 h
  obtain ⟨value, ts₃, hvalue, h⟩ := reader_bind_eq_ok_iff.1 h
  obtain ⟨pre, hpre, hts⟩ := spells_of_conditionValue hvalue
  cases h
  refine ⟨_, .mk name c hpre, ?_⟩
  rw [column_eq_ok_iff.1 hname, spells_of_comparator hc, hts]
  rfl

/-- The list starts with a keyword other than `AND`. -/
def Ends (ts : List Token) : Prop := ∃ k rest, k ≠ Keyword.and ∧ ts = .keyword k :: rest

theorem Ends.noWord {ts : List Token} (h : Ends ts) : NoWord ts := by
  obtain ⟨k, rest, -, rfl⟩ := h
  exact noWord_keyword k rest

/-- Without `AND` after it a condition is the last one. -/
theorem dependencies_of_last {ts rest : List Token} {d : Dependency}
    (h : dependency ts = .ok d rest) (hrest : Ends rest) : dependencies ts = .ok [d] rest := by
  obtain ⟨k, rest, hk, rfl⟩ := hrest
  rw [dependencies]
  split
  · next hd =>
    rw [h] at hd
    cases hd
  · next hd =>
    rw [h] at hd
    cases hd
    exact absurd rfl hk
  · next hd =>
    rw [h] at hd
    cases hd
    rfl

/-- With `AND` after it a condition is followed by others. -/
theorem dependencies_of_and {ts more rest : List Token} {d : Dependency} {ds : List Dependency}
    (h : dependency ts = .ok d (.keyword .and :: more)) (hmore : dependencies more = .ok ds rest) :
    dependencies ts = .ok (d :: ds) rest := by
  rw [dependencies]
  split
  · next hd =>
    rw [h] at hd
    cases hd
  · next hd =>
    rw [h] at hd
    cases hd
    rw [hmore]
  · next hand hd =>
    rw [h] at hd
    cases hd
    exact absurd rfl (hand _)

theorem dependencies_of_spells {ts rest : List Token} {ds : List Dependency}
    (h : SpellsDependencies ts ds) (hrest : Ends rest) :
    dependencies (ts ++ rest) = .ok ds rest := by
  induction h with
  | one h => exact dependencies_of_last (dependency_of_spells h hrest.noWord) hrest
  | and h _ ih =>
    rw [List.append_assoc, List.cons_append]
    exact dependencies_of_and (dependency_of_spells h (noWord_keyword _ _)) ih

theorem spells_of_dependencies {ts rest : List Token} {ds : List Dependency}
    (h : dependencies ts = .ok ds rest) : ∃ pre, SpellsDependencies pre ds ∧ ts = pre ++ rest := by
  fun_induction dependencies ts generalizing ds with
  | case1 => cases h
  | case2 ts d mid hd _ more left hmore ih =>
    cases h
    obtain ⟨pre, hpre, rfl⟩ := spells_of_dependency hd
    obtain ⟨pre', hpre', rfl⟩ := ih hmore
    exact ⟨_, .and hpre hpre', by simp⟩
  | case3 => cases h
  | case4 ts d mid _ hd =>
    cases h
    obtain ⟨pre, hpre, rfl⟩ := spells_of_dependency hd
    exact ⟨pre, .one hpre, rfl⟩

/-! ## Value lists -/

/-- Values with commas between them and a closing bracket, which `values` takes. -/
def listTail (values : List Literal) : List Token :=
  (values.map Literal.token).intersperse .comma ++ [.rightBracket]

theorem listTail_cons_cons (v w : Literal) (values : List Literal) :
    listTail (v :: w :: values) = v.token :: .comma :: listTail (w :: values) := by
  simp [listTail]

theorem values_of_ne_nil {vs : List Literal} (h : vs ≠ []) (count : Nat) (rest : List Token) :
    values count (listTail vs ++ rest) = .ok vs rest := by
  induction vs generalizing count with
  | nil => exact absurd rfl h
  | cons v vs ih =>
    cases vs with
    | nil =>
      simp only [listTail, List.map_cons, List.map_nil, List.intersperse_singleton,
        List.cons_append, List.nil_append]
      rw [values]
      simp only [literal?_token]
    | cons w vs =>
      rw [listTail_cons_cons, List.cons_append, List.cons_append, values]
      simp only [literal?_token, ih (List.cons_ne_nil w vs)]

theorem spells_of_values {count : Nat} {ts rest : List Token} {vs : List Literal}
    (h : values count ts = .ok vs rest) : vs ≠ [] ∧ ts = listTail vs ++ rest := by
  -- the list goes on after a comma and ends at a bracket; everything else is refused
  fun_induction values count ts generalizing vs with
  | case4 count t value ht ts more left hmore ih =>
    cases h
    obtain ⟨hne, rfl⟩ := ih hmore
    obtain ⟨w, more, rfl⟩ := List.exists_cons_of_ne_nil hne
    rw [listTail_cons_cons, literal?_eq_some_iff.1 ht]
    exact ⟨List.cons_ne_nil value _, rfl⟩
  | case6 count t value ht ts =>
    cases h
    rw [literal?_eq_some_iff.1 ht]
    exact ⟨List.cons_ne_nil value [], rfl⟩
  | case1 | case2 | case3 | case5 | case7 | case8 | case9 => cases h

theorem valueList_eq_ok_iff {ts rest : List Token} {vs : List Literal} :
    valueList ts = .ok vs rest ↔ vs ≠ [] ∧ ts = listTokens vs ++ rest := by
  unfold valueList
  constructor
  · intro h
    split at h
    · obtain ⟨hne, rfl⟩ := spells_of_values h
      exact ⟨hne, rfl⟩
    · cases h
  · rintro ⟨hne, rfl⟩
    exact values_of_ne_nil hne 0 rest

/-! ## Targets and tables -/

/-- The list starts with the keyword after a target. -/
def AfterTarget (ts : List Token) : Prop :=
  ∃ rest, ts = .keyword .in :: rest ∨ ts = .keyword .to :: rest

theorem AfterTarget.ends {ts : List Token} (h : AfterTarget ts) : Ends ts := by
  obtain ⟨rest, rfl | rfl⟩ := h
  · exact ⟨.in, rest, by decide, rfl⟩
  · exact ⟨.to, rest, by decide, rfl⟩

theorem target_of_spells {ts rest : List Token} {t : Target} (h : SpellsTarget ts t)
    (hrest : AfterTarget rest) : target (ts ++ rest) = .ok t rest := by
  cases h with
  | all => obtain ⟨rest, rfl | rfl⟩ := hrest <;> rfl
  | word id => rfl
  | quoted id => rfl
  | @conditions ts ds h =>
    have hds := dependencies_of_spells h hrest.ends
    -- the reader looks for a column before it reads conditions
    have hfront : ∃ column, front (ts ++ rest) = .word column := by
      cases h with
      | one h => cases h with | mk column c h => exact ⟨column, rfl⟩
      | and h _ => cases h with | mk column c h => exact ⟨column, rfl⟩
    obtain ⟨column, hfront⟩ := hfront
    rw [List.cons_append, target, whereClause]
    simp only [hfront, hds]

theorem spells_of_target {ts rest : List Token} {t : Target} (h : target ts = .ok t rest) :
    ∃ pre, SpellsTarget pre t ∧ ts = pre ++ rest := by
  unfold target at h
  split at h
  · unfold entryId at h
    split at h
    · cases h
      exact ⟨_, .word _, rfl⟩
    · cases h
      exact ⟨_, .quoted _, rfl⟩
    · cases h
  · unfold whereClause at h
    split at h
    · cases h
    · cases h
    · cases h
    · split at h
      · next hds =>
        cases h
        obtain ⟨pre, hpre, rfl⟩ := spells_of_dependencies hds
        exact ⟨_, .conditions hpre, rfl⟩
      · cases h
  · cases h
    exact ⟨[], .all, rfl⟩

theorem take_eq_ok_iff {t : Token} {ts rest : List Token} :
    take t ts = .ok () rest ↔ ts = t :: rest := by
  unfold take
  cases ts with
  | nil => simp [unexpected]
  | cons t' ts =>
    dsimp only
    split
    · next ht => simp [ht]
    · next ht => simp [unexpected, ht]

theorem tableSuffix_eq_ok_iff {ts rest : List Token} {table : String} :
    tableSuffix ts = .ok table rest ↔
      ts = inTable table ++ rest ∧ front rest = .endOfInput := by
  constructor
  · intro h
    unfold tableSuffix at h
    split at h
    · split at h
      · next hrest =>
        cases h
        exact ⟨rfl, hrest⟩
      · cases h
    · cases h
    · split at h <;> cases h
  · rintro ⟨rfl, hrest⟩
    simp only [inTable, List.cons_append, List.nil_append, tableSuffix, if_pos hrest]

theorem dropTable_eq_ok_iff {ts rest : List Token} {table : String} :
    dropTable ts = .ok table rest ↔ ts = .word table :: rest ∧ front rest = .endOfInput := by
  constructor
  · intro h
    unfold dropTable at h
    split at h
    · split at h
      · next hrest =>
        cases h
        exact ⟨rfl, hrest⟩
      · cases h
    · cases h
  · rintro ⟨rfl, hrest⟩
    simp only [dropTable, if_pos hrest]

/-! ## Statements -/

theorem afterTarget_inTable (table : String) (rest : List Token) :
    AfterTarget (inTable table ++ rest) :=
  ⟨_, .inl rfl⟩

theorem tableSuffix_inTable (table : String) {rest : List Token}
    (h : front rest = .endOfInput) : tableSuffix (inTable table ++ rest) = .ok table rest :=
  tableSuffix_eq_ok_iff.2 ⟨rfl, h⟩

/-- A target and a table, which end two kinds of statements. -/
def targetInTable (f : String → Target → Query) : TokenReader Query := do
  let target ← target
  let table ← tableSuffix
  return f table target

theorem targetInTable_of_spells (f : String → Target → Query) (table : String)
    {ts rest : List Token} {t : Target} (h : SpellsTarget ts t) (hrest : front rest = .endOfInput) :
    targetInTable f (ts ++ (inTable table ++ rest)) = .ok (f table t) rest := by
  have htarget := target_of_spells h (afterTarget_inTable table rest)
  refine reader_bind_eq_ok_iff.2 ⟨_, _, htarget, ?_⟩
  exact reader_bind_eq_ok_iff.2 ⟨_, _, tableSuffix_inTable table hrest, rfl⟩

theorem spells_of_targetInTable {f : String → Target → Query} {ts rest : List Token} {q : Query}
    (h : targetInTable f ts = .ok q rest) :
    ∃ pre t table, SpellsTarget pre t ∧ q = f table t ∧ ts = pre ++ inTable table ++ rest ∧
      front rest = .endOfInput := by
  obtain ⟨t, mid, ht, h⟩ := reader_bind_eq_ok_iff.1 h
  obtain ⟨table, left, htable, hq⟩ := reader_bind_eq_ok_iff.1 h
  obtain ⟨pre, hpre, rfl⟩ := spells_of_target ht
  obtain ⟨rfl, hrest⟩ := tableSuffix_eq_ok_iff.1 htable
  cases hq
  exact ⟨pre, t, table, hpre, rfl, (List.append_assoc ..).symm, hrest⟩

/-- A spelled statement is read if the input ends after it. -/
theorem statement_of_spells {ts rest : List Token} {q : Query} (h : Spells ts q)
    (hrest : front rest = .endOfInput) : statement (ts ++ rest) = .ok q rest := by
  cases h with
  | add table hvalues =>
    rw [List.cons_append, List.append_assoc]
    refine reader_bind_eq_ok_iff.2 ⟨_, _, valueList_eq_ok_iff.2 ⟨hvalues, rfl⟩, ?_⟩
    exact reader_bind_eq_ok_iff.2 ⟨_, _, tableSuffix_inTable table hrest, rfl⟩
  | remove table htarget =>
    rw [List.cons_append, List.append_assoc]
    exact targetInTable_of_spells .remove table htarget hrest
  | get table htarget =>
    rw [List.cons_append, List.append_assoc]
    exact targetInTable_of_spells .get table htarget hrest
  | set table htarget hvalues =>
    rw [List.cons_append, List.append_assoc, List.cons_append, List.append_assoc]
    refine reader_bind_eq_ok_iff.2 ⟨_, _, target_of_spells htarget ⟨_, .inr rfl⟩, ?_⟩
    refine reader_bind_eq_ok_iff.2 ⟨_, _, take_eq_ok_iff.2 rfl, ?_⟩
    refine reader_bind_eq_ok_iff.2 ⟨_, _, valueList_eq_ok_iff.2 ⟨hvalues, rfl⟩, ?_⟩
    exact reader_bind_eq_ok_iff.2 ⟨_, _, tableSuffix_inTable table hrest, rfl⟩
  | drop table =>
    exact reader_bind_eq_ok_iff.2 ⟨_, _, dropTable_eq_ok_iff.2 ⟨rfl, hrest⟩, rfl⟩

/-- What the first keyword of a statement is followed by. -/
theorem spells_of_afterAction? {k : Keyword} {reader : TokenReader Query}
    (hk : afterAction? k = some reader) {ts rest : List Token} {q : Query}
    (h : reader ts = .ok q rest) :
    ∃ pre, Spells (.keyword k :: pre) q ∧ ts = pre ++ rest ∧ front rest = .endOfInput := by
  cases k with
  | add =>
    cases hk
    obtain ⟨values, mid, hvalues, h⟩ := reader_bind_eq_ok_iff.1 h
    obtain ⟨table, left, htable, hq⟩ := reader_bind_eq_ok_iff.1 h
    obtain ⟨hne, rfl⟩ := valueList_eq_ok_iff.1 hvalues
    obtain ⟨rfl, hrest⟩ := tableSuffix_eq_ok_iff.1 htable
    cases hq
    exact ⟨_, .add table hne, (List.append_assoc ..).symm, hrest⟩
  | remove =>
    cases hk
    obtain ⟨pre, t, table, hpre, rfl, hts, hrest⟩ := spells_of_targetInTable h
    exact ⟨_, .remove table hpre, hts, hrest⟩
  | get =>
    cases hk
    obtain ⟨pre, t, table, hpre, rfl, hts, hrest⟩ := spells_of_targetInTable h
    exact ⟨_, .get table hpre, hts, hrest⟩
  | set =>
    cases hk
    obtain ⟨target, mid, htarget, h⟩ := reader_bind_eq_ok_iff.1 h
    obtain ⟨⟨⟩, mid', hto, h⟩ := reader_bind_eq_ok_iff.1 h
    obtain ⟨values, mid'', hvalues, h⟩ := reader_bind_eq_ok_iff.1 h
    obtain ⟨table, left, htable, hq⟩ := reader_bind_eq_ok_iff.1 h
    obtain ⟨pre, hpre, rfl⟩ := spells_of_target htarget
    obtain rfl := take_eq_ok_iff.1 hto
    obtain ⟨hne, rfl⟩ := valueList_eq_ok_iff.1 hvalues
    obtain ⟨rfl, hrest⟩ := tableSuffix_eq_ok_iff.1 htable
    cases hq
    exact ⟨_, .set table hpre hne, by simp, hrest⟩
  | drop =>
    cases hk
    obtain ⟨table, left, htable, hq⟩ := reader_bind_eq_ok_iff.1 h
    obtain ⟨rfl, hrest⟩ := dropTable_eq_ok_iff.1 htable
    cases hq
    exact ⟨_, .drop table, rfl, hrest⟩
  -- no other keyword starts a statement
  | entry | «where» | and | «in» | «to» | is | not | includes | excludes => cases hk

/-- What is read as a statement is spelled, and the input ends after it. -/
theorem spells_of_statement {ts rest : List Token} {q : Query} (h : statement ts = .ok q rest) :
    ∃ pre, Spells pre q ∧ ts = pre ++ rest ∧ front rest = .endOfInput := by
  cases ts with
  | nil => cases h
  | cons t ts =>
    unfold statement at h
    split at h
    · next k hk =>
      split at h
      · next reader hreader =>
        obtain ⟨pre, hpre, hts, hrest⟩ := spells_of_afterAction? hreader h
        obtain rfl : t = .keyword k := hk
        obtain rfl : ts = pre ++ rest := hts
        exact ⟨_, hpre, rfl, hrest⟩
      · cases h
    · cases h
    · cases h
    · cases h

theorem ofTokens_eq_ok_iff {ts : List Token} {q : Query} :
    Query.ofTokens ts = .ok q ↔
      ∃ pre rest, Spells pre q ∧ ts = pre ++ rest ∧ front rest = .endOfInput := by
  unfold Query.ofTokens
  constructor
  · intro h
    split at h
    · next rest hstatement =>
      cases h
      obtain ⟨pre, hpre, hts, hrest⟩ := spells_of_statement hstatement
      exact ⟨pre, rest, hpre, hts, hrest⟩
    · cases h
  · rintro ⟨pre, rest, hpre, rfl, hrest⟩
    rw [statement_of_spells hpre hrest]

/-! ## The end of the input -/

theorem endOfInput_notMem_inTable (table : String) : .endOfInput ∉ inTable table := by
  simp [inTable]

theorem Literal.token_ne_endOfInput (l : Literal) : l.token ≠ .endOfInput := by
  unfold Literal.token
  split <;> simp

theorem endOfInput_notMem_listTail (values : List Literal) : .endOfInput ∉ listTail values := by
  induction values with
  | nil => simp [listTail]
  | cons v values ih =>
    cases values with
    | nil => simp [listTail, v.token_ne_endOfInput.symm]
    | cons w values =>
      rw [listTail_cons_cons]
      simp [v.token_ne_endOfInput.symm, ih]

theorem endOfInput_notMem_listTokens (values : List Literal) :
    .endOfInput ∉ listTokens values := by
  intro h
  rcases List.mem_cons.1 h with h | h
  · cases h
  · exact endOfInput_notMem_listTail values h

theorem SpellsValue.endOfInput_notMem {ts : List Token} {l : Literal} (h : SpellsValue ts l) :
    .endOfInput ∉ ts := by
  cases h with
  | quoted text => simp
  | words hne => simp

theorem SpellsDependencies.endOfInput_notMem {ts : List Token} {ds : List Dependency}
    (h : SpellsDependencies ts ds) : .endOfInput ∉ ts := by
  have hone : ∀ {ts : List Token} {d : Dependency}, SpellsDependency ts d → .endOfInput ∉ ts := by
    intro ts d hd
    cases hd with
    | mk column comparator hvalue => simp [hvalue.endOfInput_notMem]
  induction h with
  | one hd => exact hone hd
  | and hd _ ih => simp [hone hd, ih]

theorem SpellsTarget.endOfInput_notMem {ts : List Token} {t : Target} (h : SpellsTarget ts t) :
    .endOfInput ∉ ts := by
  cases h with
  | all => exact List.not_mem_nil
  | word id => simp
  | quoted id => simp
  | conditions hds => simp [hds.endOfInput_notMem]

/-- No part of a statement is the end of the input. -/
theorem Spells.endOfInput_notMem {ts : List Token} {q : Query} (h : Spells ts q) :
    .endOfInput ∉ ts := by
  cases h with
  | add table hne => simp [endOfInput_notMem_listTokens, endOfInput_notMem_inTable]
  | remove table htarget => simp [htarget.endOfInput_notMem, endOfInput_notMem_inTable]
  | get table htarget => simp [htarget.endOfInput_notMem, endOfInput_notMem_inTable]
  | set table htarget hne =>
    simp [htarget.endOfInput_notMem, endOfInput_notMem_listTokens, endOfInput_notMem_inTable]
  | drop table => simp

/-- A statement that is followed by the end of the input takes every token before it. -/
theorem Spells.eq_of_append_eq {ts pre rest : List Token} {q : Query} (h : Spells pre q)
    (hts : .endOfInput ∉ ts) (hrest : front rest = .endOfInput)
    (heq : ts ++ [.endOfInput] = pre ++ rest) : pre = ts := by
  cases rest with
  | nil =>
    refine absurd ?_ h.endOfInput_notMem
    rw [← List.append_nil pre, ← heq]
    exact List.mem_append_right ts (List.mem_singleton.2 rfl)
  | cons t rest =>
    obtain rfl : t = .endOfInput := hrest
    exact ((List.append_cons_inj_of_notMem hts List.not_mem_nil).1 heq).1.symm

/-- A list of tokens with the end of the input behind it is read as a query exactly if the grammar
derives the list for that query: every token counts, and there is none too few and none too many. -/
theorem ofTokens_endOfInput_eq_ok_iff {ts : List Token} (hts : .endOfInput ∉ ts) {q : Query} :
    Query.ofTokens (ts ++ [.endOfInput]) = .ok q ↔ Spells ts q := by
  rw [ofTokens_eq_ok_iff]
  constructor
  · rintro ⟨pre, rest, hpre, heq, hrest⟩
    rwa [hpre.eq_of_append_eq hts hrest heq] at hpre
  · intro h
    exact ⟨ts, [.endOfInput], h, rfl, rfl⟩

/-- Two conditions, the first of which has a value of two words, and two values. -/
theorem ofTokens_endOfInput_eq_ok_iff_set :
    Query.ofTokens
        ([.keyword .set, .keyword .where, .word "Name", .keyword .is, .word "Foo", .word "Bar",
          .keyword .and, .word "Age", .keyword .not, .quoted "7", .keyword .to, .leftBracket,
          .word "*", .comma, .quoted "x, y", .rightBracket, .keyword .in, .word "T"] ++
          [.endOfInput]) =
      .ok (.set "T" (.dependencies [⟨"Name", .equals, .bare "Foo Bar"⟩,
        ⟨"Age", .notEquals, .ofQuoted "7"⟩]) [.bare "*", .ofQuoted "x, y"]) := by
  have hname : SpellsDependency [.word "Name", .keyword .is, .word "Foo", .word "Bar"]
      ⟨"Name", .equals, .bare "Foo Bar"⟩ :=
    .mk "Name" .equals (.words (List.cons_ne_nil "Foo" ["Bar"]))
  have hage : SpellsDependency [.word "Age", .keyword .not, .quoted "7"]
      ⟨"Age", .notEquals, .ofQuoted "7"⟩ :=
    .mk "Age" .notEquals (.quoted "7")
  have htarget := SpellsTarget.conditions (.and hname (.one hage))
  have hvalues : [Literal.bare "*", .ofQuoted "x, y"] ≠ [] := List.cons_ne_nil _ _
  exact (ofTokens_endOfInput_eq_ok_iff (by decide)).2 (.set "T" htarget hvalues)

end RecordStore

import RecordStore.Proofs.Query.Accepted
import RecordStore.Query.Batch

/-!
# Batches of statements

A batch is cut into statements before any of them is lexed, and the cut has its own idea of quotes:
to it every quote opens or closes one, while the lexer opens a quote only where a token starts. The
two agree on a text as long as no quote stands outside the values that the lexer takes for quoted.
Then the batch is the sequence of its statements.

- `Token.unquoted`: the characters outside quoted values, as the lexer finds them;
- `Whole`: a text that the cut leaves in one piece with every quote closed (`whole_of_unquoted`);
- `splitStatements_intercalate`: such texts are found again as the statements of a batch;
- `parse_intercalate`: the main result;
- `parse_intercalate_ne_of_apostrophe`: an apostrophe in a bare value breaks it.
-/

namespace RecordStore

open Text (isBlank)
open Token (isQuote inWord inValue scan)
open QuerySet (endsStatement splitStatements)

/-! ## Outside quoted values -/

/-- The characters of a text outside its quoted values, as the lexer finds them with `depth` open
brackets. The quotes around a value belong to it. A quote that is never closed makes no value, and
everything from it on is outside. -/
def Token.unquoted (depth : Nat) : List Char → List Char
  | [] => []
  | c :: cs =>
    if isBlank c then c :: unquoted depth cs
    else if c = '[' then c :: unquoted (depth + 1) cs
    else if c = ']' then c :: unquoted (depth - 1) cs
    else if c = ',' then c :: unquoted depth cs
    else if isQuote c then
      match h : Text.cut? c cs with
      | none => c :: cs
      | some (_, rest) =>
        have : rest.length < cs.length := Text.length_lt_of_cut? h
        unquoted depth rest
    else if 0 < depth then
      have := (cs.dropWhile_sublist inValue).length_le
      c :: cs.takeWhile inValue ++ unquoted depth (cs.dropWhile inValue)
    else
      have := (cs.dropWhile_sublist inWord).length_le
      c :: cs.takeWhile inWord ++ unquoted depth (cs.dropWhile inWord)
termination_by cs => cs.length

/-! ## Texts in one piece -/

/-- Whether a character is neither a quote nor the end of a statement. -/
def isPlain (c : Char) : Bool := !isQuote c && !endsStatement c

theorem isPlain_iff {c : Char} :
    isPlain c = true ↔ isQuote c = false ∧ endsStatement c = false := by
  rw [isPlain, Bool.and_eq_true, Bool.not_eq_true', Bool.not_eq_true']

/-- A text that the cut into statements leaves in one piece, and behind which no quote is open,
whatever follows. -/
def Whole (cs : List Char) : Prop :=
  ∀ rest, splitStatements none (cs ++ rest) =
    cs.foldr Text.extendFirst (splitStatements none rest)

theorem whole_nil : Whole [] := fun _ => rfl

theorem Whole.append {a b : List Char} (ha : Whole a) (hb : Whole b) : Whole (a ++ b) := by
  intro rest
  rw [List.append_assoc, ha, hb, List.foldr_append]

theorem whole_singleton {c : Char} (h : isPlain c = true) : Whole [c] := by
  intro rest
  obtain ⟨hquote, hends⟩ := isPlain_iff.1 h
  rw [List.singleton_append, splitStatements, if_neg (Bool.eq_false_iff.1 hquote),
    if_neg (Bool.eq_false_iff.1 hends)]
  rfl

theorem whole_of_plain {cs : List Char} (h : ∀ c ∈ cs, isPlain c = true) : Whole cs := by
  induction cs with
  | nil => exact whole_nil
  | cons c cs ih =>
    obtain ⟨hc, hcs⟩ := List.forall_mem_cons.1 h
    exact (whole_singleton hc).append (ih hcs)

theorem whole_of_all {text : String} (h : text.toList.all isPlain = true) : Whole text.toList :=
  whole_of_plain (List.all_eq_true.1 h)

theorem whole_intercalate {sep : List Char} (hsep : Whole sep) {parts : List (List Char)}
    (h : ∀ part ∈ parts, Whole part) : Whole (sep.intercalate parts) := by
  induction parts with
  | nil => exact whole_nil
  | cons part parts ih =>
    obtain ⟨hpart, hparts⟩ := List.forall_mem_cons.1 h
    cases parts with
    | nil =>
      rw [List.intercalate_singleton]
      exact hpart
    | cons next parts =>
      rw [List.intercalate_cons_cons]
      exact (hpart.append hsep).append (ih hparts)

/-- Between quotes everything is passed over up to the quote that closes them. -/
theorem splitStatements_open {q : Char} {text : List Char} (h : q ∉ text) (rest : List Char) :
    splitStatements (some q) (text ++ q :: rest) =
      (text ++ [q]).foldr Text.extendFirst (splitStatements none rest) := by
  induction text with
  | nil =>
    rw [List.nil_append, splitStatements]
    rw [if_pos rfl]
    rfl
  | cons c text ih =>
    obtain ⟨hc, htext⟩ := not_or.1 (mt List.mem_cons.2 h)
    rw [List.cons_append, splitStatements]
    rw [if_neg (Ne.symm hc), ih htext]
    rfl

theorem whole_quoted {q : Char} (hq : isQuote q = true) {text : List Char} (h : q ∉ text) :
    Whole (q :: (text ++ [q])) := by
  intro rest
  rw [List.cons_append, List.append_assoc, List.singleton_append, splitStatements, if_pos hq,
    splitStatements_open h]
  rfl

/-- The cut and the lexer agree on a text in which quotes stand only around and inside quoted
values: if no statement ends outside these, the text is one piece. -/
theorem whole_of_unquoted {depth : Nat} {cs : List Char}
    (h : ∀ c ∈ Token.unquoted depth cs, isPlain c = true) : Whole cs := by
  fun_induction Token.unquoted depth cs with
  | case1 => exact whole_nil
  | case2 depth c cs _ ih | case3 depth cs _ ih | case4 depth cs _ _ ih
  | case5 depth cs _ _ _ ih =>
    obtain ⟨hc, hcs⟩ := List.forall_mem_cons.1 h
    exact (whole_singleton hc).append (ih hcs)
  | case6 depth c cs _ _ _ _ hq =>
    -- a quote that is never closed is outside
    have hc := h c List.mem_cons_self
    rw [isPlain, hq] at hc
    cases hc
  | case7 depth c cs _ _ _ _ hq text rest hcut _ ih =>
    obtain ⟨rfl, htext⟩ := Text.cut?_eq_some_iff.1 hcut
    have := (whole_quoted hq htext).append (ih h)
    simpa using this
  | case8 depth c cs _ _ _ _ _ _ _ ih =>
    obtain ⟨hrun, hrest⟩ := List.forall_mem_append.1 h
    have := (whole_of_plain hrun).append (ih hrest)
    rwa [List.cons_append, List.takeWhile_append_dropWhile] at this
  | case9 depth c cs _ _ _ _ _ _ _ ih =>
    obtain ⟨hrun, hrest⟩ := List.forall_mem_append.1 h
    have := (whole_of_plain hrun).append (ih hrest)
    rwa [List.cons_append, List.takeWhile_append_dropWhile] at this

/-! ## Cutting a batch -/

theorem Whole.splitStatements {cs : List Char} (h : Whole cs) :
    splitStatements none cs = [cs] := by
  have := h []
  rwa [List.append_nil, QuerySet.splitStatements, Text.foldr_extendFirst, List.append_nil] at this

theorem Whole.splitStatements_append {cs : List Char} (h : Whole cs) {sep : Char}
    (hsep : endsStatement sep = true) (rest : List Char) :
    QuerySet.splitStatements none (cs ++ sep :: rest) =
      cs :: QuerySet.splitStatements none rest := by
  have hquote : ¬ isQuote sep = true := by
    simp only [endsStatement, Bool.or_eq_true, beq_iff_eq] at hsep
    rcases hsep with rfl | rfl <;> decide
  rw [h, QuerySet.splitStatements, if_neg hquote, if_pos hsep, Text.foldr_extendFirst,
    List.append_nil]

/-- Texts in one piece are the statements of the batch that they are joined to. -/
theorem splitStatements_intercalate {sep : Char} (hsep : endsStatement sep = true)
    {parts : List (List Char)} (hne : parts ≠ []) (h : ∀ part ∈ parts, Whole part) :
    splitStatements none ([sep].intercalate parts) = parts := by
  induction parts with
  | nil => exact absurd rfl hne
  | cons part parts ih =>
    obtain ⟨hpart, hparts⟩ := List.forall_mem_cons.1 h
    cases parts with
    | nil =>
      rw [List.intercalate_singleton]
      exact hpart.splitStatements
    | cons next parts =>
      rw [List.intercalate_cons_cons, List.append_assoc, List.singleton_append,
        hpart.splitStatements_append hsep, ih (List.cons_ne_nil next parts) hparts]

/-! ## Reading a batch -/

theorem Spells.ne_nil {ts : List Token} {q : Query} (h : Spells ts q) : ts ≠ [] := by
  cases h <;> exact List.cons_ne_nil _ _

/-- Blanks around a statement do not matter. -/
theorem parse_trim {cs : List Char} {q : Query} :
    Query.parse (String.ofList (Text.trim cs)) = .ok q ↔
      Query.parse (String.ofList cs) = .ok q := by
  have hscan : ∀ ts, scan 0 (Text.trim cs) = .ok ts ↔ scan 0 cs = .ok ts := by
    intro ts
    rw [← scan?_eq_some_iff, ← scan?_eq_some_iff, Text.trim, scan?_trimEnd, scan?_trimStart]
  simp only [parse_eq_ok_iff, String.toList_ofList, hscan]

/-- What is read as a query is not blank. -/
theorem trim_ne_nil_of_parse {cs : List Char} {q : Query}
    (h : Query.parse (String.ofList cs) = .ok q) : Text.trim cs ≠ [] := by
  intro hnil
  obtain ⟨ts, hscan, hts⟩ := parse_eq_ok_iff.1 (parse_trim.2 h)
  rw [hnil, String.toList_ofList, scan] at hscan
  obtain ⟨t, ts, rfl⟩ := List.exists_cons_of_ne_nil hts.ne_nil
  cases ts <;> cases hscan

/-- A batch whose parts are statements is read as the queries of these. -/
theorem parse_of_splitStatements {text : String} {parts : List (List Char)} {qs : List Query}
    (hparts : splitStatements none text.toList = parts)
    (h : List.Forall₂ (fun part q => Query.parse (String.ofList part) = .ok q) parts qs) :
    QuerySet.parse text = .ok qs := by
  have hkept : (parts.map Text.trim).filter (fun part => !part.isEmpty) = parts.map Text.trim := by
    rw [List.filter_eq_self]
    intro trimmed hmem
    obtain ⟨part, hpart, rfl⟩ := List.mem_map.1 hmem
    obtain ⟨q, -, hq⟩ := exists_of_mem_of_mapM (mapM_eq_ok_iff.2 h) hpart
    simp [trim_ne_nil_of_parse hq]
  rw [QuerySet.parse, QuerySet.statements, hparts]
  rw [hkept, mapM_eq_ok_iff, List.forall₂_map_left_iff, List.forall₂_map_left_iff]
  exact h.imp fun part q hq => parse_trim.2 hq

/-- A statement in one piece is a batch of one query. -/
theorem parse_of_whole {text : String} {q : Query} (hwhole : Whole text.toList)
    (hparse : Query.parse text = .ok q) : QuerySet.parse text = .ok [q] := by
  refine parse_of_splitStatements hwhole.splitStatements (.cons ?_ .nil)
  rw [String.ofList_toList]
  exact hparse

/-- Statements that are read one by one are read as a batch when they are joined by a new line or a
`;`, if neither of these and no quote stands outside their quoted values. -/
theorem parse_intercalate {texts : List String} {qs : List Query} {sep : Char}
    (hsep : endsStatement sep = true)
    (hparse : List.Forall₂ (fun text q => Query.parse text = .ok q) texts qs)
    (hends : ∀ text ∈ texts, ∀ c ∈ Token.unquoted 0 text.toList, endsStatement c = false)
    (hquotes : ∀ text ∈ texts, ∀ c ∈ Token.unquoted 0 text.toList, isQuote c = false) :
    QuerySet.parse ((String.singleton sep).intercalate texts) = .ok qs := by
  cases texts with
  | nil =>
    rw [List.forall₂_nil_left_iff] at hparse
    rw [hparse]
    rfl
  | cons text texts =>
    have hwhole : ∀ part ∈ (text :: texts).map String.toList, Whole part := by
      intro part hpart
      obtain ⟨text, htext, rfl⟩ := List.mem_map.1 hpart
      refine @whole_of_unquoted 0 text.toList ?_
      intro c hc
      exact isPlain_iff.2 ⟨hquotes text htext c hc, hends text htext c hc⟩
    have hparts : splitStatements none
        ((String.singleton sep).intercalate (text :: texts)).toList =
          (text :: texts).map String.toList := by
      rw [String.toList_intercalate, String.toList_singleton]
      exact splitStatements_intercalate hsep (List.cons_ne_nil _ _) hwhole
    refine parse_of_splitStatements hparts ?_
    simpa only [List.forall₂_map_left_iff, String.ofList_toList] using hparse

set_option maxRecDepth 4000 in
/-- A quoted value may hold the ends of statements and an apostrophe. -/
theorem parse_intercalate_quoted_value :
    QuerySet.parse
        ((String.singleton '\n').intercalate ["ADD [\"it's;\n\", 1] IN T", "drop T"]) =
      .ok [.add "T" [.ofQuoted "it's;\n", .bare "1"], .drop "T"] := by
  have hadd : Query.parse "ADD [\"it's;\n\", 1] IN T" =
      .ok (.add "T" [.ofQuoted "it's;\n", .bare "1"]) := by cbv
  have hdrop : Query.parse "drop T" = .ok (.drop "T") := by cbv
  have hplain : ∀ text ∈ ["ADD [\"it's;\n\", 1] IN T", "drop T"],
      ∀ c ∈ Token.unquoted 0 text.toList, isPlain c = true := by
    refine List.forall_mem_cons.2 ⟨?_, List.forall_mem_singleton.2 ?_⟩
    · exact List.all_eq_true.1 (by cbv)
    · exact List.all_eq_true.1 (by cbv)
  refine parse_intercalate (by decide) (.cons hadd (.cons hdrop .nil)) ?_ ?_
  · intro text htext c hc
    exact (isPlain_iff.1 (hplain text htext c hc)).2
  · intro text htext c hc
    exact (isPlain_iff.1 (hplain text htext c hc)).1

set_option maxRecDepth 4000 in
/-- An apostrophe in a bare value opens a quote for the cut into statements, which then misses the
end of the statement. -/
theorem parse_intercalate_ne_of_apostrophe :
    Query.parse "ADD [O'Brien] IN T" = .ok (.add "T" [.bare "O'Brien"]) ∧
      Query.parse "DROP T" = .ok (.drop "T") ∧
      (∀ text ∈ ["ADD [O'Brien] IN T", "DROP T"], ∀ c ∈ Token.unquoted 0 text.toList,
        endsStatement c = false) ∧
      QuerySet.parse ((String.singleton '\n').intercalate ["ADD [O'Brien] IN T", "DROP T"]) ≠
        .ok [.add "T" [.bare "O'Brien"], .drop "T"] := by
  have hbatch :
      QuerySet.parse ((String.singleton '\n').intercalate ["ADD [O'Brien] IN T", "DROP T"]) =
        .error (.unexpectedToken "end of input after table name" "DROP") := by cbv
  refine ⟨by cbv, by cbv, ?_, ?_⟩
  · have hends : ∀ text ∈ ["ADD [O'Brien] IN T", "DROP T"],
        ∀ c ∈ Token.unquoted 0 text.toList, (!endsStatement c) = true := by
      refine List.forall_mem_cons.2 ⟨?_, List.forall_mem_singleton.2 ?_⟩
      · exact List.all_eq_true.1 (by cbv)
      · exact List.all_eq_true.1 (by cbv)
    intro text htext c hc
    rw [← Bool.not_eq_true']
    exact hends text htext c hc
  · rw [hbatch]
    intro h
    cases h

end RecordStore

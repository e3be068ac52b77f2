import RecordStore.CommandLine.Columns
import RecordStore.Proofs.Name
import RecordStore.Proofs.Text.Split
import RecordStore.Proofs.Token.Respelling

/-!
# Schemas on the command line

The text after `--columns` leaves much to the writer: blanks wherever they do no harm, commas with
nothing between them, several names for each type and letters of either case. However a valid schema
is written, it is read back; and whatever text is accepted, each of its pairs gives one column.

- `Text.exists_trim`, `Text.trim_append`: a text without the blanks around it;
- `StorageType.IsNamed`: the names of a type (`ofName_eq_ok_iff`);
- `Gives`: a pair and the column that it gives (`Gives.parsePair_trim`, `gives_of_parsePair`);
- `parseColumns_eq_ok_iff`: what is read from a text;
- `parseColumns_written`: every way to write a schema.
-/

namespace RecordStore

/-! ## Blanks around a text -/

namespace Text

/-- A text of nothing but blanks. -/
def Blanks (cs : List Char) : Prop := ∀ c ∈ cs, isBlank c = true

/-- Only blanks are cut off. -/
theorem exists_trim (cs : List Char) :
    ∃ before after, cs = before ++ trim cs ++ after ∧ Blanks before ∧ Blanks after := by
  refine ⟨cs.takeWhile isBlank, ((trimStart cs).reverse.takeWhile isBlank).reverse, ?_, ?_, ?_⟩
  · have hend : trim cs ++ ((trimStart cs).reverse.takeWhile isBlank).reverse = trimStart cs := by
      rw [trim, trimEnd, ← List.reverse_append, List.takeWhile_append_dropWhile,
        List.reverse_reverse]
    rw [List.append_assoc, hend, trimStart, List.takeWhile_append_dropWhile]
  · exact fun c hc => List.mem_takeWhile_imp hc
  · exact fun c hc => List.mem_takeWhile_imp (List.mem_reverse.1 hc)

/-- All blanks are cut off, up to a text that neither starts nor ends with one. -/
theorem trim_append {before core after : List Char} (hbefore : Blanks before)
    (hafter : Blanks after) (hhead : ∀ c ∈ core.head?, isBlank c = false)
    (hlast : ∀ c ∈ core.getLast?, isBlank c = false) : trim (before ++ core ++ after) = core := by
  have hstart : trimStart (before ++ core ++ after) = trimStart (core ++ after) := by
    rw [List.append_assoc, trimStart, trimStart, List.dropWhile_append_of_pos hbefore]
  rw [trim, hstart]
  cases core with
  | nil =>
    rw [List.nil_append, trimStart, List.dropWhile_eq_nil_iff.2 hafter]
    rfl
  | cons c core =>
    have hc : isBlank c = false := hhead c rfl
    rw [trimStart, List.cons_append, List.dropWhile_cons_of_neg (by rw [hc]; simp),
      ← List.cons_append, trimEnd_append_blanks hafter, trimEnd_of_stop hlast]

/-- Nothing is left of blanks alone. -/
theorem isEmpty_trim (cs : List Char) : (trim cs).isEmpty = cs.all isBlank := by
  rw [Bool.eq_iff_iff, List.isEmpty_iff, List.all_eq_true]
  constructor
  · intro hnil
    obtain ⟨before, after, hcs, hbefore, hafter⟩ := exists_trim cs
    rw [hnil, List.append_nil] at hcs
    rw [hcs]
    exact List.forall_mem_append.2 ⟨hbefore, hafter⟩
  · intro hblank
    have hcut : trim ([] ++ [] ++ cs) = [] :=
      trim_append (List.forall_mem_nil _) hblank (by simp) (by simp)
    exact hcut

end Text

open Text (Blanks isBlank)

/-! ## The names of types -/

namespace StorageType

/-- The names of a type, in capital letters. -/
def aliases : StorageType → List String
  | integer => ["INTEGER", "INT"]
  | decimal => ["DECIMAL", "DEC", "FLOAT"]
  | string => ["STRING", "STR", "TEXT"]

/-- The text is one of the names of a type, in letters of either case. -/
def IsNamed (type : StorageType) (cs : List Char) : Prop :=
  ∃ name ∈ type.aliases, cs.map Char.toUpper = name.toList

variable {type : StorageType}

theorem ofCapitals?_eq_some_iff {name : String} :
    ofCapitals? name = some type ↔ name ∈ type.aliases := by
  constructor
  · intro h
    unfold ofCapitals? at h
    split at h
    all_goals cases h
    all_goals simp [aliases]
  · intro h
    cases type with
    | integer =>
      simp only [aliases, List.mem_cons, List.not_mem_nil, or_false] at h
      rcases h with rfl | rfl <;> rfl
    | decimal | string =>
      simp only [aliases, List.mem_cons, List.not_mem_nil, or_false] at h
      rcases h with rfl | rfl | rfl <;> rfl

/-- A type is read from its names. -/
theorem ofName_eq_ok_iff {name : String} : ofName name = .ok type ↔ type.IsNamed name.toList := by
  have hupper : type.IsNamed name.toList ↔ Text.upper name ∈ type.aliases := by
    constructor
    · rintro ⟨capitals, hmem, heq⟩
      rwa [Text.upper, heq, String.ofList_toList]
    · intro h
      exact ⟨_, h, by rw [Text.upper, String.toList_ofList]⟩
  rw [hupper, ← ofCapitals?_eq_some_iff, ofName]
  cases ofCapitals? (Text.upper name) <;> simp

/-- The names of types are made of letters. -/
theorem IsNamed.inWord {cs : List Char} (h : type.IsNamed cs) :
    cs ≠ [] ∧ ∀ c ∈ cs, Token.inWord c = true := by
  obtain ⟨name, hname, heq⟩ := h
  have hletters : ∀ capitals ∈ type.aliases, capitals.toList ≠ [] ∧
      ∀ c ∈ capitals.toList, Token.inWord c = true ∧ Token.isQuote c = false := by
    intro capitals hmem
    have hall : (capitals.toList.all fun c => Token.inWord c && !Token.isQuote c) = true ∧
        capitals.toList ≠ [] := by
      cases type
      all_goals
        simp only [aliases, List.mem_cons, List.not_mem_nil, or_false] at hmem
        rcases hmem with rfl | rfl | rfl <;> decide
    exact ⟨hall.2, by simpa using hall.1⟩
  obtain ⟨hne, hchars⟩ := hletters name hname
  refine ⟨?_, fun c hc => (inWord_of_toUpper (hchars c.toUpper ?_)).1⟩
  · rintro rfl
    exact hne heq.symm
  · rw [← heq]
    exact List.mem_map_of_mem hc

end StorageType

/-! ## Pairs -/

namespace CommandLine

/-- A pair gives a column: its name, a colon and one of the names of its type, with any blanks
around each. -/
inductive Gives : List Char → Column → Prop where
  | pair {c : Column} {b₁ b₂ b₃ b₄ type : List Char} (hb₁ : Blanks b₁) (hb₂ : Blanks b₂)
      (hb₃ : Blanks b₃) (hb₄ : Blanks b₄) (htype : c.type.IsNamed type) :
      Gives (b₁ ++ c.name.toList ++ b₂ ++ ':' :: (b₃ ++ type ++ b₄)) c

/-- Whether a text between commas is a pair and not empty or blank. -/
def isPair (part : List Char) : Bool := !part.all isBlank

variable {part : List Char} {c : Column}

/-- A pair that is read gives the column. -/
theorem gives_of_parsePair (h : parsePair (Text.trim part) = .ok c) : Gives part c := by
  unfold parsePair at h
  split at h
  · cases h
  next name type hcut =>
  split at h
  · next t ht =>
    cases h
    obtain ⟨hpair, -⟩ := Text.cut?_eq_some_iff.1 hcut
    obtain ⟨front, back, hpart, hfront, hback⟩ := Text.exists_trim part
    obtain ⟨b₁, b₂, hname, hb₁, hb₂⟩ := Text.exists_trim name
    obtain ⟨b₃, b₄, htype, hb₃, hb₄⟩ := Text.exists_trim type
    have hnamed : t.IsNamed (Text.trim type) := by
      have := StorageType.ofName_eq_ok_iff.1 ht
      rwa [trimmed, String.toList_ofList] at this
    -- the blanks around the pair stand before its name and behind its type
    have hchars : part = (front ++ b₁) ++ (trimmed name).toList ++ b₂ ++
        ':' :: (b₃ ++ Text.trim type ++ (b₄ ++ back)) := by
      rw [trimmed, String.toList_ofList]
      conv_lhs => rw [hpart, hpair, hname, htype]
      simp only [List.append_assoc, List.cons_append]
    rw [hchars]
    exact .pair (c := ⟨trimmed name, t⟩) (List.forall_mem_append.2 ⟨hfront, hb₁⟩) hb₂ hb₃
      (List.forall_mem_append.2 ⟨hb₄, hback⟩) hnamed
  · cases h

namespace Gives

/-- A pair that gives a column with a valid name is read as this column. -/
theorem parsePair_trim (h : Gives part c) (hname : Name.check c.name = .ok ()) :
    parsePair (Text.trim part) = .ok c := by
  cases h with
  | @pair _ b₁ b₂ b₃ b₄ type hb₁ hb₂ hb₃ hb₄ htype =>
    obtain ⟨hne, hword⟩ := htype.inWord
    have hnameBlank : ∀ x ∈ c.name.toList, isBlank x = false :=
      fun x hx => Name.isBlank_of_check hname hx
    have htypeBlank : ∀ x ∈ type, isBlank x = false := fun x hx => (inWord_iff.1 (hword x hx)).1
    have hnameNe : c.name.toList ≠ [] := by simpa using Name.ne_empty_of_check hname
    -- what is left of the pair starts with the name and ends with the type
    have htrim : Text.trim (b₁ ++ c.name.toList ++ b₂ ++ ':' :: (b₃ ++ type ++ b₄)) =
        c.name.toList ++ b₂ ++ ':' :: (b₃ ++ type) := by
      have hsplit : b₁ ++ c.name.toList ++ b₂ ++ ':' :: (b₃ ++ type ++ b₄) =
          b₁ ++ (c.name.toList ++ b₂ ++ ':' :: (b₃ ++ type)) ++ b₄ := by simp
      rw [hsplit]
      refine Text.trim_append hb₁ hb₄ (fun x hx => ?_) (fun x hx => ?_)
      · rw [List.append_assoc, List.head?_append_of_ne_nil _ hnameNe] at hx
        exact hnameBlank x (List.mem_of_head? hx)
      · rw [List.getLast?_append_of_ne_nil _ (by simp), ← List.cons_append,
          List.getLast?_append_of_ne_nil _ hne] at hx
        exact htypeBlank x (List.mem_of_getLast? hx)
    have hcolon : ':' ∉ c.name.toList ++ b₂ := by
      rw [List.mem_append, not_or]
      refine ⟨Name.notMem_of_check hname (by decide), fun hmem => ?_⟩
      cases hb₂ ':' hmem
    have hcut : Text.cut? ':' (c.name.toList ++ b₂ ++ ':' :: (b₃ ++ type)) =
        some (c.name.toList ++ b₂, b₃ ++ type) := Text.cut?_append hcolon _
    have hn : Text.trim (c.name.toList ++ b₂) = c.name.toList := by
      rw [← List.nil_append (c.name.toList ++ b₂), ← List.append_assoc]
      exact Text.trim_append (List.forall_mem_nil _) hb₂
        (fun x hx => hnameBlank x (List.mem_of_head? hx))
        (fun x hx => hnameBlank x (List.mem_of_getLast? hx))
    have ht : Text.trim (b₃ ++ type) = type := by
      rw [← List.append_nil (b₃ ++ type)]
      exact Text.trim_append hb₃ (List.forall_mem_nil _)
        (fun x hx => htypeBlank x (List.mem_of_head? hx))
        (fun x hx => htypeBlank x (List.mem_of_getLast? hx))
    have hofName : StorageType.ofName (trimmed (b₃ ++ type)) = .ok c.type := by
      rw [StorageType.ofName_eq_ok_iff, trimmed, String.toList_ofList, ht]
      exact htype
    rw [htrim, parsePair, hcut]
    simp only [hofName]
    rw [trimmed, hn, String.ofList_toList]

/-- It is not blank. -/
theorem isPair (h : Gives part c) : isPair part = true := by
  cases h with
  | pair =>
    have hcolon : isBlank ':' = false := by decide
    simp [CommandLine.isPair, hcolon]

/-- It has no comma if the name of the column is valid. -/
theorem comma_notMem (h : Gives part c) (hname : Name.check c.name = .ok ()) : ',' ∉ part := by
  cases h with
  | @pair _ b₁ b₂ b₃ b₄ type hb₁ hb₂ hb₃ hb₄ htype =>
    have hblank {b : List Char} (hb : Blanks b) : ',' ∉ b := by
      intro hmem
      cases hb ',' hmem
    have hn : ',' ∉ c.name.toList := Name.notMem_of_check hname (by decide)
    have ht : ',' ∉ type := fun hmem => (inWord_iff.1 (htype.inWord.2 ',' hmem)).2.2.2 rfl
    simp [hblank hb₁, hblank hb₂, hblank hb₃, hblank hb₄, hn, ht]

end Gives

/-! ## Texts -/

/-- The pairs are the parts between commas that are not blank. -/
theorem pairs_eq (text : String) :
    pairs text = ((Text.splitOn ',' text.toList).filter isPair).map Text.trim := by
  rw [pairs, List.filter_map]
  congr 1
  refine List.filter_congr fun part _ => ?_
  show (!(Text.trim part).isEmpty) = isPair part
  rw [Text.isEmpty_trim, isPair]

/-- What is read is one column for each pair, in their order, and at least one. -/
theorem parseColumns_eq_ok_iff {text : String} {schema : Schema} :
    parseColumns text = .ok schema ↔
      schema.columns ≠ [] ∧
        List.Forall₂ (fun part c => parsePair (Text.trim part) = .ok c)
          ((Text.splitOn ',' text.toList).filter isPair) schema.columns := by
  have hpairs (columns : List Column) : (pairs text).mapM parsePair = .ok columns ↔
      List.Forall₂ (fun part c => parsePair (Text.trim part) = .ok c)
        ((Text.splitOn ',' text.toList).filter isPair) columns := by
    rw [mapM_eq_ok_iff, pairs_eq, List.forall₂_map_left_iff]
  obtain ⟨columns⟩ := schema
  rw [← hpairs, parseColumns]
  cases (pairs text).mapM parsePair with
  | error fault => simp
  | ok found =>
    cases found with
    | nil => simp +contextual [eq_comm]
    | cons c found => simp +contextual [eq_comm]

/-- A column as a pair without blanks. -/
def plainPair (c : Column) : List Char := c.name.toList ++ ':' :: c.type.label.toList

theorem gives_plainPair (c : Column) : Gives (plainPair c) c := by
  have hblanks : Blanks [] := List.forall_mem_nil _
  have hlabel : c.type.IsNamed c.type.label.toList := by
    refine ⟨c.type.label, ?_, ?_⟩
    · cases c.type <;> simp [StorageType.label, StorageType.aliases]
    · cases c.type <;> decide
  simpa [plainPair] using Gives.pair hblanks hblanks hblanks hblanks hlabel

section Written

variable {schema : Schema} {parts : List (List Char)} (hcheck : schema.check = .ok ())
  (hparts : List.Forall₂ Gives (parts.filter isPair) schema.columns)
include hcheck hparts

/-- The pairs of a valid schema are read as its columns. -/
theorem forall₂_parsePair :
    List.Forall₂ (fun part c => parsePair (Text.trim part) = .ok c) (parts.filter isPair)
      schema.columns := by
  have hnames := Schema.name_of_check hcheck
  rw [List.forall₂_iff_get] at hparts ⊢
  refine ⟨hparts.1, fun i hi hcolumn => ?_⟩
  exact (hparts.2 i hi hcolumn).parsePair_trim (hnames _ (List.getElem_mem hcolumn))

/-- No part has a comma, whether it is a pair or blank. -/
theorem comma_notMem_parts : ∀ part ∈ parts, ',' ∉ part := by
  intro part hmem
  by_cases hpair : isPair part = true
  · obtain ⟨c, hc, hgives⟩ := exists_of_mem_of_forall₂ hparts (List.mem_filter.2 ⟨hmem, hpair⟩)
    exact hgives.comma_notMem (Schema.name_of_check hcheck c hc)
  · intro hcomma
    simp only [isPair, Bool.not_eq_true, Bool.not_eq_false', List.all_eq_true] at hpair
    cases hpair ',' hcomma

end Written

/-- However a valid schema is written, it is read: each column as a pair, and between the commas
there may be blank parts as well. There is a way to write every valid schema. Whatever text is read,
there is one column for each part of it that is not blank, in their order, and there is one. -/
theorem parseColumns_written :
    (∀ (schema : Schema) (parts : List (List Char)), schema.check = .ok () →
      List.Forall₂ Gives (parts.filter isPair) schema.columns →
      parseColumns (String.ofList (Text.join [','] parts)) = .ok schema) ∧
    (∀ schema : Schema, schema.check = .ok () → ∃ text, parseColumns text = .ok schema) ∧
    ∀ text schema, parseColumns text = .ok schema →
      schema.columns ≠ [] ∧
        List.Forall₂ Gives ((Text.splitOn ',' text.toList).filter isPair) schema.columns := by
  have hread (schema : Schema) (parts : List (List Char)) (hcheck : schema.check = .ok ())
      (hparts : List.Forall₂ Gives (parts.filter isPair) schema.columns) :
      parseColumns (String.ofList (Text.join [','] parts)) = .ok schema := by
    have hcolumns := Schema.columns_ne_nil_of_check hcheck
    have hne : parts ≠ [] := by
      rintro rfl
      exact hcolumns (List.forall₂_nil_left_iff.1 hparts)
    rw [parseColumns_eq_ok_iff, String.toList_ofList,
      Text.splitOn_join hne (comma_notMem_parts hcheck hparts)]
    exact ⟨hcolumns, forall₂_parsePair hcheck hparts⟩
  refine ⟨hread, fun schema hcheck => ?_, fun text schema h => ?_⟩
  · refine ⟨_, hread schema (schema.columns.map plainPair) hcheck ?_⟩
    rw [List.filter_eq_self.2 (List.forall_mem_map.2 fun c _ => (gives_plainPair c).isPair),
      List.forall₂_map_left_iff, List.forall₂_same]
    exact fun c _ => gives_plainPair c
  · obtain ⟨hcolumns, hpairs⟩ := parseColumns_eq_ok_iff.1 h
    exact ⟨hcolumns, hpairs.imp fun _ _ => gives_of_parsePair⟩

/-- Blanks around names, types and pairs, blank parts and other names for the types. -/
theorem parseColumns_written_spaced :
    parseColumns " , Näme\t: Text,,a.b :iNt ," =
      .ok { columns := [⟨"Näme", .string⟩, ⟨"a.b", .integer⟩] } := by
  have hcheck : Schema.check { columns := [⟨"Näme", .string⟩, ⟨"a.b", .integer⟩] } = .ok () := by
    decide +kernel
  have hspace : Blanks [' '] := by simp [Blanks, isBlank]
  have htab : Blanks ['\t'] := by simp [Blanks, isBlank]
  have hnone : Blanks [] := List.forall_mem_nil _
  have hfirst : Gives " Näme\t: Text".toList ⟨"Näme", .string⟩ := by
    have hnamed : StorageType.string.IsNamed "Text".toList :=
      ⟨"TEXT", by simp [StorageType.aliases], by decide⟩
    exact .pair (c := ⟨"Näme", .string⟩) hspace htab hspace hnone hnamed
  have hsecond : Gives "a.b :iNt ".toList ⟨"a.b", .integer⟩ := by
    have hnamed : StorageType.integer.IsNamed "iNt".toList :=
      ⟨"INT", by simp [StorageType.aliases], by decide⟩
    exact .pair (c := ⟨"a.b", .integer⟩) hnone hspace hnone hspace hnamed
  exact parseColumns_written.1 { columns := [⟨"Näme", .string⟩, ⟨"a.b", .integer⟩] }
    [" ".toList, " Näme\t: Text".toList, [], "a.b :iNt ".toList, []] hcheck
    (.cons hfirst (.cons hsecond .nil))

end CommandLine

end RecordStore

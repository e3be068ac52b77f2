import RecordStore.Text.Split

/-!
# Cutting texts that were put together

A text with a separator between its parts is cut where the separator was written, as long as the
parts are free of it.

- `cut?_append`, `cut?_eq_some_iff`, `cut?_eq_none_iff`: the first separator;
- `splitOn_append`, `splitOn_of_notMem`, `splitOn_append_cons`: every separator;
- `splitOn_eq_cons_iff`: the parts are the ones without a separator that the text is put together
  from;
- `splitOn_join`: parts that are put together are cut apart again;
- `getLast?_splitOn_eq_some_iff`: what comes after the last one;
- `foldr_extendFirst`: a text that is put at the front of the first part.
-/

namespace RecordStore.Text

/-- A text is cut at its first separator exactly if what comes before is free of it. -/
theorem cut?_eq_some_iff {sep : Char} {cs before after : List Char} :
    cut? sep cs = some (before, after) ↔ cs = before ++ sep :: after ∧ sep ∉ before := by
  constructor
  · intro h
    refine ⟨eq_append_of_cut? h, ?_⟩
    induction cs generalizing before with
    | nil => cases h
    | cons c cs ih =>
      rw [cut?] at h
      split at h
      · cases h
        exact List.not_mem_nil
      · next hc =>
        obtain ⟨⟨tail, rest⟩, htail, heq⟩ := Option.map_eq_some_iff.1 h
        cases heq
        exact List.not_mem_cons_of_ne_of_not_mem (Ne.symm hc) (ih htail)
  · rintro ⟨rfl, h⟩
    induction before with
    | nil => simp [cut?]
    | cons c before ih =>
      obtain ⟨hc, hbefore⟩ := not_or.1 (mt List.mem_cons.2 h)
      rw [List.cons_append, cut?, if_neg (Ne.symm hc), ih hbefore]
      rfl

theorem cut?_append {sep : Char} {before : List Char} (h : sep ∉ before) (after : List Char) :
    cut? sep (before ++ sep :: after) = some (before, after) :=
  cut?_eq_some_iff.2 ⟨rfl, h⟩

theorem cut?_eq_none_iff {sep : Char} {cs : List Char} : cut? sep cs = none ↔ sep ∉ cs := by
  constructor
  · intro h hmem
    obtain ⟨before, after, rfl, hbefore⟩ := List.eq_append_cons_of_mem hmem
    rw [cut?_append hbefore] at h
    cases h
  · intro h
    rw [Option.eq_none_iff_forall_ne_some]
    rintro ⟨before, after⟩ hcut
    refine h ?_
    rw [eq_append_of_cut? hcut]
    exact List.mem_append_right _ List.mem_cons_self

theorem splitOn_append {sep : Char} {part : List Char} (h : sep ∉ part) (cs : List Char) :
    splitOn sep (part ++ sep :: cs) = part :: splitOn sep cs := by
  induction part with
  | nil => rw [List.nil_append, splitOn, if_pos rfl]
  | cons c part ih =>
    obtain ⟨hc, hpart⟩ := not_or.1 (mt List.mem_cons.2 h)
    rw [List.cons_append, splitOn, if_neg (Ne.symm hc), ih hpart, extendFirst]

theorem splitOn_of_notMem {sep : Char} {part : List Char} (h : sep ∉ part) :
    splitOn sep part = [part] := by
  induction part with
  | nil => rfl
  | cons c part ih =>
    obtain ⟨hc, hpart⟩ := not_or.1 (mt List.mem_cons.2 h)
    rw [splitOn, if_neg (Ne.symm hc), ih hpart, extendFirst]

/-- The parts of a text are the only ones without a separator that make up the text. -/
theorem splitOn_eq_cons_iff {sep : Char} {cs part : List Char} {parts : List (List Char)} :
    splitOn sep cs = part :: parts ↔
      cs = part ++ parts.flatMap (sep :: ·) ∧ sep ∉ part ∧ ∀ p ∈ parts, sep ∉ p := by
  constructor
  · intro h
    induction cs generalizing part parts with
    | nil =>
      cases h
      exact ⟨rfl, List.not_mem_nil, List.forall_mem_nil _⟩
    | cons c cs ih =>
      obtain ⟨first, others, hsplit⟩ := List.exists_cons_of_ne_nil (splitOn_ne_nil sep cs)
      obtain ⟨hcs, hfirst, hothers⟩ := ih hsplit
      rw [splitOn, hsplit] at h
      split at h
      · next hc =>
        cases h
        exact ⟨by simp [hc, hcs], List.not_mem_nil, List.forall_mem_cons.2 ⟨hfirst, hothers⟩⟩
      · next hc =>
        cases h
        refine ⟨by simp [hcs], ?_, hothers⟩
        exact List.not_mem_cons_of_ne_of_not_mem (Ne.symm hc) hfirst
  · rintro ⟨rfl, hpart, hparts⟩
    induction parts generalizing part with
    | nil => rw [List.flatMap_nil, List.append_nil, splitOn_of_notMem hpart]
    | cons p parts ih =>
      obtain ⟨hp, hparts⟩ := List.forall_mem_cons.1 hparts
      rw [List.flatMap_cons, List.cons_append, splitOn_append hpart, ih hp hparts]

/-- Parts without a separator are cut apart again. -/
theorem splitOn_join {sep : Char} {parts : List (List Char)} (hne : parts ≠ [])
    (h : ∀ p ∈ parts, sep ∉ p) : splitOn sep (join [sep] parts) = parts := by
  induction parts with
  | nil => exact absurd rfl hne
  | cons p parts ih =>
    obtain ⟨hp, hparts⟩ := List.forall_mem_cons.1 h
    cases parts with
    | nil => exact splitOn_of_notMem hp
    | cons q parts =>
      show splitOn sep (p ++ [sep] ++ join [sep] (q :: parts)) = _
      rw [List.append_assoc, List.singleton_append, splitOn_append hp,
        ih (List.cons_ne_nil q parts) hparts]

theorem join_eq_intercalate (sep : List Char) (parts : List (List Char)) :
    join sep parts = sep.intercalate parts := by
  induction parts with
  | nil => rfl
  | cons part parts ih =>
    cases parts with
    | nil => simp [join]
    | cons part' parts => rw [join, ih, List.intercalate_cons_cons]; simp

/-- A separator cuts a text wherever it stands. -/
theorem splitOn_append_cons (sep : Char) (before after : List Char) :
    splitOn sep (before ++ sep :: after) = splitOn sep before ++ splitOn sep after := by
  induction before with
  | nil =>
    show splitOn sep (sep :: after) = [] :: splitOn sep after
    rw [splitOn, if_pos rfl]
  | cons c before ih =>
    rw [List.cons_append, splitOn, splitOn, ih]
    split
    · rfl
    · cases hparts : splitOn sep before with
      | nil => exact absurd hparts (splitOn_ne_nil sep before)
      | cons part parts => rfl

/-- The last part is what comes after the last separator, or all of a text without one. -/
theorem getLast?_splitOn_eq_some_iff {sep : Char} {cs part : List Char} :
    (splitOn sep cs).getLast? = some part ↔
      sep ∉ part ∧ (cs = part ∨ ∃ before, cs = before ++ sep :: part) := by
  constructor
  · intro h
    by_cases hsep : sep ∈ cs
    · obtain ⟨after, before, heq, hafter⟩ := List.eq_append_cons_of_mem (List.mem_reverse.2 hsep)
      have hcs : cs = before.reverse ++ sep :: after.reverse := by
        rw [← List.reverse_reverse cs, heq]
        simp
      rw [hcs, splitOn_append_cons, splitOn_of_notMem (mt List.mem_reverse.1 hafter),
        List.getLast?_concat, Option.some.injEq] at h
      subst h
      exact ⟨mt List.mem_reverse.1 hafter, .inr ⟨_, hcs⟩⟩
    · rw [splitOn_of_notMem hsep] at h
      cases h
      exact ⟨hsep, .inl rfl⟩
  · rintro ⟨hpart, rfl | ⟨before, rfl⟩⟩
    · rw [splitOn_of_notMem hpart]
      rfl
    · rw [splitOn_append_cons, splitOn_of_notMem hpart, List.getLast?_concat]

/-- A text in one piece becomes the first part. -/
theorem foldr_extendFirst (cs part : List Char) (parts : List (List Char)) :
    cs.foldr extendFirst (part :: parts) = (cs ++ part) :: parts := by
  induction cs with
  | nil => rfl
  | cons c cs ih => rw [List.foldr_cons, ih, extendFirst, List.cons_append]

end RecordStore.Text

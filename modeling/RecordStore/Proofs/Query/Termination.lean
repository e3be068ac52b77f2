import RecordStore.Proofs.Query.Cursor

/-!
# Reading a statement ends

On a list of tokens that ends with the end of the input, reading a statement with a cursor always
comes to something: the cursor never leaves the list, no move is lost at the last token, and each
pass of a loop that reads something moves the cursor. What is read is what the readers of lists
read.

- `Follows`: reading with a cursor as a reader of lists does; `follows_…`: each part of a statement;
- `Unrolls`: a pass of a loop next to a reader of lists; `unrolls_…`: one pass of each loop;
- `comesTo_collect`: a loop is over if each pass makes the list shorter;
- `Cursor.Progresses`, `statement_terminates`: whole statements and every pass of their loops;
- `statement_unfinished`: without the end of the input there are statements that are read for ever.
-/

namespace RecordStore

variable {α β : Type}

/-! ## Following a reader of lists -/

/-- A result or an error of a reader of lists, and the list that it leaves. -/
def Gives (y : TokenReader α) (ts : List Token) : Except ParseError α → List Token → Prop
  | .ok a, rest => y ts = .ok a rest
  | .error e, rest => y ts = .error e rest

theorem Gives.congr {y z : TokenReader α} {ts us : List Token} (h : y ts = z us) :
    Gives y ts = Gives z us := by
  funext r rest
  cases r <;> simp only [Gives, h]

/-- Wherever the cursor stands, with no more tokens left than the limit, a reader comes to what a
reader of lists comes to, and leaves the cursor where that one leaves the list. -/
def Follows (limit : Nat) (x : CursorReader α) (y : TokenReader α) : Prop :=
  ∀ (c : Cursor) (ts : List Token), c.At ts → ts.length ≤ limit → c.ComesTo x (Gives y ts)

theorem Follows.bind {limit : Nat} {x : CursorReader α} {f : α → CursorReader β}
    {y : TokenReader α} {g : α → TokenReader β} (hx : Follows limit x y)
    (hf : ∀ a, Follows limit (f a) (g a)) : Follows limit (x >>= f) (y >>= g) := by
  intro c ts hc hlimit
  refine .bind hc (hx c ts hc hlimit) (fun a rest c' hc' hlength hy => ?_) fun e rest hy => ?_
  · refine (hf a c' rest hc' (hlength.trans hlimit)).mono fun r left hg => ?_
    cases r with
    | ok b => exact bind_run_eq_ok_iff.2 ⟨a, rest, hy, hg⟩
    | error e => exact bind_run_eq_error_iff.2 (.inr ⟨a, rest, hy, hg⟩)
  · exact bind_run_eq_error_iff.2 (.inl hy)

/-- A reader that starts with a look at the next token. -/
theorem Follows.of_current {limit : Nat} {f : Token → CursorReader α} {y : TokenReader α}
    (h : ∀ (c : Cursor) t ts, c.At (t :: ts) → ts.length < limit →
      c.ComesTo (f t) (Gives y (t :: ts))) :
    Follows limit (CursorReader.current >>= f) y := by
  intro c ts hc hlimit
  obtain ⟨t, ts, rfl⟩ := hc.exists_cons
  exact hc.current (h c t ts hc hlimit)

theorem Follows.pure {limit : Nat} (a : α) : Follows limit (pure a) (pure a) :=
  fun _ _ hc _ => hc.pure rfl

/-! ## Parts without a loop -/

namespace CursorReader

variable {c : Cursor} {t : Token} {ts : List Token} {limit : Nat}

theorem follows_take {expected : Token} (h : expected ≠ .endOfInput) :
    Follows limit (take expected) (TokenReader.take expected) := by
  intro c ts hc _
  obtain ⟨t, ts, rfl⟩ := hc.exists_cons
  by_cases ht : t = expected
  · subst ht
    exact ⟨.ok (), 1, ts, run_take hc h, hc.moved h, if_pos rfl⟩
  · refine hc.current ?_
    rw [if_neg ht]
    exact hc.unexpected (if_neg ht)

theorem follows_column : Follows limit column TokenReader.column := by
  refine .of_current fun c t ts hc _ => ?_
  cases t with
  | word name => exact hc.advance nofun fun hc => hc.pure rfl
  | keyword | quoted | leftBracket | rightBracket | comma | endOfInput => exact hc.unexpected rfl

theorem follows_comparator : Follows limit comparator TokenReader.comparator := by
  refine .of_current fun c t ts hc _ => ?_
  cases t with
  | keyword k =>
    dsimp only
    split
    · next comparator h =>
      refine hc.advance nofun fun hc => hc.pure ?_
      simp only [Gives, TokenReader.comparator, TokenReader.front, List.headD_cons, h,
        List.tail_cons]
    · next h =>
      refine hc.throw ?_
      simp only [Gives, TokenReader.comparator, TokenReader.front, List.headD_cons, h]
  | word | quoted | leftBracket | rightBracket | comma | endOfInput => exact hc.throw rfl

theorem follows_entryId : Follows limit entryId TokenReader.entryId := by
  refine .of_current fun c t ts hc _ => ?_
  cases t with
  | word id | quoted id => exact hc.advance nofun fun hc => hc.pure rfl
  | keyword | leftBracket | rightBracket | comma | endOfInput => exact hc.throw rfl

theorem follows_tableSuffix : Follows limit tableSuffix TokenReader.tableSuffix := by
  refine .of_current fun c t ts hc _ => ?_
  cases t with
  | keyword k =>
    cases k with
    | «in» =>
      refine hc.advance nofun fun hc => ?_
      obtain ⟨t, ts, rfl⟩ := hc.exists_cons
      refine hc.current ?_
      cases t with
      | word table =>
        refine hc.advance nofun fun hc => ?_
        refine hc.ite_isAtEnd (fun hend => hc.pure (if_pos hend)) fun hend => ?_
        obtain ⟨t, ts, rfl⟩ := hc.exists_cons
        exact hc.unexpected (if_neg hend)
      | keyword | quoted | leftBracket | rightBracket | comma | endOfInput => exact hc.throw rfl
    | _ => exact hc.unexpected rfl
  | endOfInput => exact hc.throw rfl
  | word | quoted | leftBracket | rightBracket | comma => exact hc.unexpected rfl

theorem follows_dropTable : Follows limit dropTable TokenReader.dropTable := by
  refine .of_current fun c t ts hc _ => ?_
  cases t with
  | word table =>
    refine hc.advance nofun fun hc => ?_
    refine hc.ite_isAtEnd (fun hend => hc.pure (if_pos hend)) fun hend => ?_
    exact hc.remaining (hc.throw (if_neg hend))
  | keyword | quoted | leftBracket | rightBracket | comma | endOfInput =>
    exact hc.remaining (hc.throw rfl)

end CursorReader

/-! ## Loops -/

/-- What a pass of a loop comes to, if the loop is to read what `y` reads: a pass that reads
something makes the list shorter, and `y` goes on behind it where the loop does. -/
inductive Unrolls (y : Nat → TokenReader (List α)) (count : Nat) (ts : List Token) :
    Except ParseError (CursorReader.Pass α) → List Token → Prop where
  | again {a : α} {rest : List Token} (hlt : rest.length < ts.length)
    (h : y count ts = (do return a :: (← y (count + 1)) : TokenReader (List α)) rest) :
    Unrolls y count ts (.ok (.again a)) rest
  | last {a : α} {rest : List Token} (hlt : rest.length < ts.length)
    (h : y count ts = .ok [a] rest) : Unrolls y count ts (.ok (.last a)) rest
  | done (h : y count ts = .ok [] ts) : Unrolls y count ts (.ok .done) ts
  | error {e : ParseError} {rest : List Token} (h : y count ts = .error e rest) :
    Unrolls y count ts (.error e) rest

namespace TokenReader

/-- The words at the front, which is never a failure. -/
def takeWords : TokenReader (List String) := fun ts => .ok (words ts).1 (words ts).2

/-- Conditions are one condition and, if `AND` stands behind it, others. -/
theorem dependencies_eq (ts : List Token) :
    dependencies ts =
      match dependency ts with
      | .ok d rest =>
        if rest.head? = some (.keyword .and) then
          (do return d :: (← dependencies) : TokenReader (List Dependency)) rest.tail
        else .ok [d] rest
      | .error e rest => .error e rest := by
  rw [dependencies]
  split
  · next h => rw [h]
  · next d rest h =>
    simp only [h, List.head?_cons, if_true, List.tail_cons, bind, EStateM.bind]
    cases dependencies rest <;> rfl
  · next d rest hand h =>
    rw [h]
    refine (if_neg fun hhead => ?_).symm
    obtain ⟨tail, rfl⟩ := List.head?_eq_some_iff.1 hhead
    exact hand tail rfl

/-- Conditions are looked for unless the clause is seen to be empty. -/
theorem whereClause_eq {t : Token} (hin : t ≠ .keyword .in) (hto : t ≠ .keyword .to)
    (hend : t ≠ .endOfInput) (ts : List Token) :
    whereClause (t :: ts) =
      (do return .dependencies (← dependencies) : TokenReader Target) (t :: ts) := by
  unfold whereClause
  split
  · next h => exact absurd h hin
  · next h => exact absurd h hto
  · next h => exact absurd h hend
  · simp only [bind, EStateM.bind]
    cases dependencies (t :: ts) <;> rfl

end TokenReader

namespace CursorReader

variable {c : Cursor} {t : Token} {ts : List Token} {limit : Nat}

/-- A loop of which every pass unrolls a reader of lists is over within as many passes as there are
tokens left, and reads what that reader does. -/
theorem comesTo_collect {pass : Nat → CursorReader (Pass α)} {y : Nat → TokenReader (List α)}
    (hpass : ∀ count (c : Cursor) ts, c.At ts → ts.length ≤ limit →
      c.ComesTo (pass count) (Unrolls y count ts))
    {passes count : Nat} (hc : c.At ts) (hlimit : ts.length ≤ limit)
    (hpasses : ts.length ≤ passes) :
    c.ComesTo (collect pass passes count) (Gives (y count) ts) := by
  -- each pass that reads something makes the list shorter, and so leaves enough passes for the rest
  induction passes generalizing c ts count with
  | zero =>
    obtain ⟨t, ts, rfl⟩ := hc.exists_cons
    cases hpasses
  | succ passes ih =>
    refine (hpass count c ts hc hlimit).bind hc (fun p rest c' hc' _ hp => ?_) fun e rest hp => ?_
    · cases hp with
      | again hlt h =>
        have hrest : rest.length ≤ limit := hlt.le.trans hlimit
        have hfewer : rest.length ≤ passes := Nat.le_of_lt_succ (hlt.trans_le hpasses)
        refine (ih hc' hrest hfewer).bind hc' (fun as left c'' hc'' _ hmore => ?_)
          fun e left hmore => ?_
        · exact hc''.pure (h.trans (bind_run_eq_ok_iff.2 ⟨as, left, hmore, rfl⟩))
        · exact h.trans (bind_run_eq_error_iff.2 (.inl hmore))
      | last hlt h => exact hc'.pure h
      | done h => exact hc'.pure h
    · cases hp with
      | error h => exact h

theorem unrolls_wordPass (count : Nat) (hc : c.At ts) :
    c.ComesTo wordPass (Unrolls (fun _ => TokenReader.takeWords) count ts) := by
  obtain ⟨t, ts, rfl⟩ := hc.exists_cons
  refine hc.current ?_
  cases t with
  | word w => exact hc.advance nofun fun hc => hc.pure (.again (Nat.lt_succ_self _) rfl)
  | keyword | quoted | leftBracket | rightBracket | comma | endOfInput => exact hc.pure (.done rfl)

theorem unrolls_valuePass (count : Nat) (hc : c.At ts) :
    c.ComesTo (valuePass count) (Unrolls TokenReader.values count ts) := by
  obtain ⟨t, ts, rfl⟩ := hc.exists_cons
  refine hc.current ?_
  cases hliteral : TokenReader.literal? t with
  | none =>
    dsimp only
    by_cases ht : t = .endOfInput
    · rw [if_pos ht]
      exact hc.throw (.error (by rw [TokenReader.values, hliteral]; exact if_pos ht))
    · rw [if_neg ht]
      exact hc.throw (.error (by rw [TokenReader.values, hliteral]; exact if_neg ht))
  | some value =>
    have ht : t ≠ .endOfInput := by
      rintro rfl
      cases hliteral
    refine hc.advance ht fun hc => ?_
    obtain ⟨t', ts, rfl⟩ := hc.exists_cons
    refine hc.current ?_
    cases t' with
    | comma =>
      refine hc.advance nofun fun hc => hc.pure (.again (by simp) ?_)
      rw [TokenReader.values, hliteral]
      simp only [bind, EStateM.bind]
      cases TokenReader.values (count + 1) ts <;> rfl
    | rightBracket =>
      refine hc.advance nofun fun hc => hc.pure (.last (by simp) ?_)
      rw [TokenReader.values, hliteral]
    | keyword | word | quoted | leftBracket | endOfInput =>
      exact hc.throw (.error (by rw [TokenReader.values, hliteral]; rfl))

theorem follows_valueList : Follows limit (valueList limit) TokenReader.valueList := by
  refine .of_current fun c t ts hc hlimit => ?_
  cases t with
  | leftBracket =>
    have hlength : ts.length ≤ limit := Nat.le_of_lt hlimit
    exact hc.advance nofun fun hc =>
      comesTo_collect (fun count _ _ hc _ => unrolls_valuePass count hc) hc hlength hlength
  | keyword | word | quoted | rightBracket | comma | endOfInput => exact hc.throw rfl

theorem follows_conditionValue (column : String) :
    Follows limit (conditionValue limit column) (TokenReader.conditionValue column) := by
  refine .of_current fun c t ts hc hlimit => ?_
  cases t with
  | quoted q => exact hc.advance nofun fun hc => hc.pure rfl
  | word w =>
    -- the loop starts at the first word, and so it reads one word at least
    refine (comesTo_collect (fun count _ _ hc _ => unrolls_wordPass count hc) hc hlimit
      hlimit).bind hc (fun words rest c' hc' _ hwords => hc'.pure ?_) fun e rest hwords => ?_
    · cases hwords
      rfl
    · cases hwords
  | keyword | leftBracket | rightBracket | comma | endOfInput => exact hc.throw rfl

theorem follows_dependency : Follows limit (dependency limit) TokenReader.dependency :=
  follows_column.bind fun column => follows_comparator.bind fun _ =>
    (follows_conditionValue column).bind fun _ => .pure _

theorem unrolls_conditionPass (count : Nat) (hc : c.At ts) (hlimit : ts.length ≤ limit) :
    c.ComesTo (conditionPass limit) (Unrolls (fun _ => TokenReader.dependencies) count ts) := by
  have hfail {e rest} (he : TokenReader.dependency ts = .error e rest) :
      TokenReader.dependencies ts = .error e rest := by
    rw [TokenReader.dependencies_eq, he]
  refine (follows_dependency c ts hc hlimit).bind hc
    (fun d rest c' hc' _ (hd : TokenReader.dependency ts = .ok d rest) => ?_)
    fun e rest he => .error (hfail he)
  obtain ⟨t, rest, rfl⟩ := hc'.exists_cons
  have hlt := TokenReader.dependency_shortens hd
  refine hc'.current ?_
  by_cases ht : t = .keyword .and
  · subst ht
    rw [if_pos rfl]
    refine hc'.advance nofun fun hc => hc.pure (.again (Nat.lt_of_succ_lt hlt) ?_)
    rw [TokenReader.dependencies_eq, hd]
    rfl
  · rw [if_neg ht]
    refine hc'.pure (.last hlt ?_)
    rw [TokenReader.dependencies_eq, hd]
    exact if_neg fun hhead => ht (Option.some.inj hhead)

theorem follows_whereClause : Follows limit (whereClause limit) TokenReader.whereClause := by
  refine .of_current fun c t ts hc hlimit => ?_
  split
  · exact hc.throw rfl
  · exact hc.throw rfl
  · exact hc.throw rfl
  · next hin hto hend =>
    rw [Gives.congr (TokenReader.whereClause_eq hin hto hend ts)]
    refine Follows.bind (fun c ts hc hlimit => ?_) (fun _ => .pure _) c _ hc hlimit
    exact comesTo_collect (fun count _ _ => unrolls_conditionPass count) hc hlimit hlimit

end CursorReader

/-! ## Statements -/

namespace TokenReader

/-- A statement goes on behind a keyword that starts one. -/
theorem statement_of_action {k : Keyword} {y : TokenReader Query} (h : afterAction? k = some y)
    (ts : List Token) : statement (.keyword k :: ts) = y ts := by
  simp only [statement, front, List.headD_cons, h, List.tail_cons]

theorem statement_of_no_action {k : Keyword} (h : afterAction? k = none) (ts : List Token) :
    statement (.keyword k :: ts) = .error (.unknownAction k.text) (.keyword k :: ts) := by
  simp only [statement, front, List.headD_cons, h]

end TokenReader

namespace CursorReader

variable {limit : Nat}

theorem follows_target : Follows limit (target limit) TokenReader.target := by
  refine .of_current fun c t ts hc hlimit => ?_
  have hlength : ts.length ≤ limit := Nat.le_of_lt hlimit
  cases t with
  | keyword k =>
    cases k with
    | entry => exact hc.advance nofun fun hc => follows_entryId _ _ hc hlength
    | «where» => exact hc.advance nofun fun hc => follows_whereClause _ _ hc hlength
    | _ => exact hc.pure rfl
  | word | quoted | leftBracket | rightBracket | comma | endOfInput => exact hc.pure rfl

/-- The same keywords start a statement, and what follows them is read alike. -/
theorem follows_afterAction? (k : Keyword) :
    Option.Rel (Follows limit) (afterAction? limit k) (TokenReader.afterAction? k) := by
  cases k with
  | add => exact .some (follows_valueList.bind fun _ => follows_tableSuffix.bind fun _ => .pure _)
  | remove | get =>
    exact .some (follows_target.bind fun _ => follows_tableSuffix.bind fun _ => .pure _)
  | set =>
    have hto : Token.keyword .to ≠ .endOfInput := nofun
    exact .some (follows_target.bind fun _ => (follows_take hto).bind fun _ =>
      follows_valueList.bind fun _ => follows_tableSuffix.bind fun _ => .pure _)
  | drop => exact .some (follows_dropTable.bind fun _ => .pure _)
  | entry | «where» | and | «in» | «to» | is | not | includes | excludes => exact .none

theorem follows_statement : Follows limit (statement limit) TokenReader.statement := by
  refine .of_current fun c t ts hc hlimit => ?_
  cases t with
  | keyword k =>
    have haction : Option.Rel (Follows limit) _ _ := follows_afterAction? k
    dsimp only
    generalize afterAction? limit k = x at haction
    cases hy : TokenReader.afterAction? k with
    | some y =>
      rw [hy] at haction
      cases haction with
      | some hrest =>
        rw [Gives.congr (TokenReader.statement_of_action hy ts)]
        exact hc.take nofun fun hc => hrest _ _ hc (Nat.le_of_lt hlimit)
    | none =>
      rw [hy] at haction
      cases haction with
      | none => exact hc.throw (TokenReader.statement_of_no_action hy ts)
  | word | quoted | leftBracket | rightBracket | comma | endOfInput => exact hc.throw rfl

end CursorReader

/-! ## Progress -/

namespace Cursor

/-- A pass of a loop comes to an end with the cursor at a token. It has moved the cursor as often as
it told it to move on, and has moved it unless there is nothing more to read or the pass fails. -/
def Progresses (c : Cursor) (pass : CursorReader (CursorReader.Pass α)) : Prop :=
  ∃ r k, pass.run c = .ok (r, c.moved k) ∧ c.position + k < c.tokens.length ∧
    ∀ p, r = .ok p → p ≠ .done → 0 < k

/-- A pass that unrolls a reader of lists progresses. -/
theorem At.progresses {c : Cursor} {ts : List Token} {pass : CursorReader (CursorReader.Pass α)}
    {y : Nat → TokenReader (List α)} {count : Nat} (hc : c.At ts)
    (h : c.ComesTo pass (Unrolls y count ts)) : c.Progresses pass := by
  obtain ⟨r, k, rest, hrun, hat, hr⟩ := h
  refine ⟨r, k, hrun, hat.position_lt, fun p hp hdone => ?_⟩
  have hmoved (hlt : rest.length < ts.length) : 0 < k := by
    refine Nat.pos_of_ne_zero ?_
    rintro rfl
    rw [← hc.left_eq, ← hat.left_eq] at hlt
    exact Nat.lt_irrefl _ hlt
  cases hr with
  | again hlt h => exact hmoved hlt
  | last hlt h => exact hmoved hlt
  | done h => exact absurd (Except.ok.inj hp).symm hdone
  | error h => cases hp

theorem at_start {ts : List Token} (h : ts.getLast? = some .endOfInput) : (start ts).At ts :=
  ⟨rfl, h⟩

/-- Every position of a list that ends with the end of the input is one where such a list starts. -/
theorem at_left {c : Cursor} (h : c.tokens.getLast? = some .endOfInput)
    (hc : c.position < c.tokens.length) : c.At c.left := by
  refine ⟨rfl, ?_⟩
  rw [left, List.getLast?_drop, if_neg (Nat.not_le.2 hc), h]

end Cursor

theorem ofTokens_of_gives {ts rest : List Token} {r : Except ParseError Query}
    (h : Gives TokenReader.statement ts r rest) : r = Query.ofTokens ts := by
  rw [Query.ofTokens]
  cases r with
  | ok q =>
    have hq : TokenReader.statement ts = .ok q rest := h
    rw [hq]
  | error e =>
    have he : TokenReader.statement ts = .error e rest := h
    rw [he]

/-- On every list of tokens that ends with the end of the input, also if the input ends before that
or keywords stand where none belong, reading a statement with a cursor comes to what the list spells
or to an error, if no loop is kept from as many passes as there are tokens: no look is out of range.
The cursor is told to move on less often than there are tokens, and each time it moves. Wherever in
the list a pass of a loop starts, it ends within the list, and it moves the cursor unless there is
nothing more to read or it fails. -/
theorem statement_terminates {ts : List Token} (h : ts.getLast? = some .endOfInput) {limit : Nat}
    (hlimit : ts.length ≤ limit) :
    (∃ k < ts.length, (CursorReader.statement limit).run (Cursor.start ts) =
      .ok (Query.ofTokens ts, (Cursor.start ts).moved k)) ∧
    ∀ c : Cursor, c.tokens = ts → c.position < ts.length →
      (∀ count, c.Progresses (CursorReader.valuePass count)) ∧
      c.Progresses (CursorReader.conditionPass limit) ∧
      c.Progresses CursorReader.wordPass := by
  constructor
  · obtain ⟨r, k, rest, hrun, hat, hr⟩ :=
      CursorReader.follows_statement _ ts (Cursor.at_start h) hlimit
    rw [ofTokens_of_gives hr] at hrun
    have hlt : 0 + k < ts.length := hat.position_lt
    exact ⟨k, Nat.zero_add k ▸ hlt, hrun⟩
  · rintro c rfl hposition
    have hc := Cursor.at_left h hposition
    have hlength : c.left.length ≤ limit := by
      rw [Cursor.length_left]
      exact (Nat.sub_le _ _).trans hlimit
    exact ⟨fun count => hc.progresses (CursorReader.unrolls_valuePass count hc),
      hc.progresses (CursorReader.unrolls_conditionPass 0 hc hlength),
      hc.progresses (CursorReader.unrolls_wordPass 0 hc)⟩

/-- A statement whose input ends within a condition, with a keyword behind that. -/
def endsEarly : List Token :=
  [.keyword .get, .keyword .where, .word "Name", .keyword .is, .word "Foo", .word "Bar",
    .endOfInput, .keyword .and, .endOfInput]

theorem statement_terminates_early_end :
    endsEarly.getLast? = some .endOfInput ∧ endsEarly.length ≤ 9 ∧
    (∃ k < endsEarly.length, (CursorReader.statement 9).run (Cursor.start endsEarly) =
      .ok (.error .missingTable, (Cursor.start endsEarly).moved k)) ∧
    Cursor.Progresses ⟨endsEarly, 5, 5⟩ CursorReader.wordPass := by
  have hlast : endsEarly.getLast? = some .endOfInput := rfl
  have hlength : endsEarly.length ≤ 9 := Nat.le_refl 9
  obtain ⟨⟨k, hk, hrun⟩, hpasses⟩ := statement_terminates hlast hlength
  have hanswer : Query.ofTokens endsEarly = .error .missingTable := by
    have hcursor : (CursorReader.statement 9).run (Cursor.start endsEarly) =
        .ok (.error .missingTable, (Cursor.start endsEarly).moved 6) := rfl
    exact (Prod.mk.inj (Except.ok.inj (hrun.symm.trans hcursor))).1
  refine ⟨hlast, hlength, ⟨k, hk, hanswer ▸ hrun⟩, ?_⟩
  exact (hpasses ⟨endsEarly, 5, 5⟩ rfl (by decide)).2.2

/-! ## Without the end of the input -/

namespace CursorReader

/-- Words up to the last token are read for ever: there the cursor stays, and finds a word again. -/
theorem collect_words_unfinished {ws : List String} (hne : ws ≠ []) {c : Cursor}
    (hc : c.left = ws.map .word) (passes count : Nat) :
    (collect (fun _ => wordPass) passes count).run c = .error .unfinished := by
  induction passes generalizing c ws count with
  | zero => rfl
  | succ passes ih =>
    obtain ⟨w, ws, rfl⟩ := List.exists_cons_of_ne_nil hne
    have hrun : wordPass.run c = .ok (.ok (.again w),
        if ws.map Token.word = [] then { c with advances := c.advances + 1 } else c.moved 1) :=
      (run_bind_of_ok (run_current hc) _).trans (run_bind_of_ok (run_advance hc) _)
    refine (run_bind_of_ok hrun _).trans (run_bind_of_fault ?_ _)
    -- after the last word the cursor is where it was
    cases ws with
    | nil =>
      exact ih (c := { c with advances := c.advances + 1 }) (List.cons_ne_nil w []) hc (count + 1)
    | cons v ws => exact ih (List.cons_ne_nil v ws) (Cursor.left_moved hc) (count + 1)

/-- A condition whose value has no end is read for ever. -/
theorem dependency_unfinished {column : String} {comparator : Comparator} {ws : List String}
    (hne : ws ≠ []) {c : Cursor}
    (hc : c.left = .word column :: .keyword comparator.keyword :: ws.map .word) (limit : Nat) :
    (dependency limit).run c = .error .unfinished := by
  have hkeyword := Cursor.left_moved hc
  obtain ⟨w, ws, rfl⟩ := List.exists_cons_of_ne_nil hne
  have hvalue := Cursor.left_moved hkeyword
  have hcolumn : CursorReader.column.run c = .ok (.ok column, c.moved 1) :=
    (run_bind_of_ok (run_current hc) _).trans (run_bind_of_ok (run_advance hc) _)
  have hcomparator : CursorReader.comparator.run (c.moved 1) =
      .ok (.ok comparator, (c.moved 1).moved 1) := by
    refine (run_bind_of_ok (run_current hkeyword) _).trans ?_
    simp only [Comparator.ofKeyword?_keyword]
    exact run_bind_of_ok (run_advance hkeyword) _
  refine (run_bind_of_ok hcolumn _).trans ((run_bind_of_ok hcomparator _).trans ?_)
  refine run_bind_of_fault ((run_bind_of_ok (run_current hvalue) _).trans ?_) _
  exact run_bind_of_fault (collect_words_unfinished hne hvalue limit 0) _

/-- So the input has to end: without that, no limit is enough for a statement with a condition whose
value goes on to the last token. -/
theorem statement_unfinished (column : String) (comparator : Comparator) {ws : List String}
    (hne : ws ≠ []) (limit : Nat) :
    (statement limit).run (Cursor.start (.keyword .get :: .keyword .where :: .word column ::
      .keyword comparator.keyword :: ws.map .word)) = .error .unfinished := by
  generalize hstart : Cursor.start _ = c
  have hget : c.left = .keyword .get :: .keyword .where :: .word column ::
      .keyword comparator.keyword :: ws.map .word := hstart ▸ rfl
  have hwhere := Cursor.left_moved hget
  have hcondition := Cursor.left_moved hwhere
  have htake : (take (.keyword .get)).run c = .ok (.ok (), c.moved 1) :=
    (run_bind_of_ok (run_current hget) _).trans (run_advance hget)
  refine (run_bind_of_ok (run_current hget) _).trans ((run_bind_of_ok htake _).trans ?_)
  refine run_bind_of_fault ((run_bind_of_ok (run_current hwhere) _).trans ?_) _
  refine (run_bind_of_ok (run_advance hwhere) _).trans ?_
  refine (run_bind_of_ok (run_current hcondition) _).trans (run_bind_of_fault ?_ _)
  cases limit with
  | zero => rfl
  | succ limit =>
    refine run_bind_of_fault (run_bind_of_fault ?_ _) _
    exact dependency_unfinished hne hcondition (limit + 1)

end CursorReader

end RecordStore

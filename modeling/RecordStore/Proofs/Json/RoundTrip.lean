import RecordStore.Json.Parser
import RecordStore.Json.Printer
import RecordStore.Proofs.Decimal.Spelling
import RecordStore.Proofs.Sequence

/-!
# JSON that is written is read back

A tree is written without any space, so the reader meets exactly the characters that were written.
Each reader stops where the writer did: a string at its closing quote, a number before what may
stand behind a value, an array or object at its closing bracket. So the tree is found again, as long
as its numbers are spelled as numbers are.

- `stringBody?_escaped`: a string is read back, whatever characters it has;
- `Number.IsSpelled`, `numberText?_render`: a number that follows the grammar is read back;
- `Json.IsSpelled`: the trees that can be written so that they can be read;
- `value?_compact`, `parse?_compact`: such a tree is read back;
- `Number.isSpelled_ofInt`, `Number.isSpelled_ofFloat`: integers and finite floats are spelled as
  numbers are.
-/

namespace RecordStore.Json

open RecordStore.Numeral

/-! ## Strings -/

/-- Hexadecimal digits in lower case have their value. -/
theorem hexValue?_hexDigit : ∀ n < 16, hexValue? (hexDigit n) = some n := by decide

theorem hex4?_hexDigit {n : Nat} (h : n < 256) :
    hex4? '0' '0' (hexDigit (n / 16)) (hexDigit (n % 16)) = some n := by
  have hhigh := hexValue?_hexDigit (n / 16) (by omega)
  have hlow := hexValue?_hexDigit (n % 16) (by omega)
  have hzero : hexValue? '0' = some 0 := by decide
  have hsum : ((0 * 16 + 0) * 16 + n / 16) * 16 + n % 16 = n := by omega
  simp only [hex4?, hzero, hhigh, hlow, Option.bind_eq_bind, Option.bind_some, hsum]
  rfl

/-- A character that is written by its number is the next piece. -/
theorem stringBody?_number {c : Char} (h : c.toNat < 256) (rest : List Char) :
    stringBody? ('\\' :: 'u' :: '0' :: '0' :: hexDigit (c.toNat / 16) ::
      hexDigit (c.toNat % 16) :: rest) =
      (stringBody? rest).bind fun (pieces, rest) => some (.char c :: pieces, rest) := by
  have hhalf : isHalf c.toNat = false := by
    simp only [isHalf, Bool.and_eq_false_iff, decide_eq_false_iff_not]
    omega
  have hpiece : pieceOf c.toNat = .char c := by
    rw [pieceOf, hhalf, if_neg Bool.false_ne_true, Char.ofNat_toNat]
  rw [stringBody?, hex4?_hexDigit h]
  simp only [Option.bind_eq_bind, Option.bind_some, hpiece]
  rfl

/-- A character that stands for itself is the next piece. -/
theorem stringBody?_self {c : Char} (hquote : c ≠ '"') (hbackslash : c ≠ '\\')
    (hcontrol : ¬c.toNat < 0x20) (rest : List Char) :
    stringBody? (c :: rest) =
      (stringBody? rest).bind fun (pieces, rest) => some (.char c :: pieces, rest) := by
  rw [stringBody?.eq_def]
  split
  · next h => cases h
  · next h => exact absurd (List.cons.inj h).1 hquote
  · next h => exact absurd (List.cons.inj h).1 hbackslash
  · next h => exact absurd (List.cons.inj h).1 hbackslash
  · next h =>
    cases h
    simp only [hbackslash, hcontrol]
    rfl

/-- A character that was written is the next piece. -/
theorem stringBody?_escapedChar (c : Char) (rest : List Char) :
    stringBody? (escapedChar c ++ rest) =
      (stringBody? rest).bind fun (pieces, rest) => some (.char c :: pieces, rest) := by
  unfold escapedChar
  split_ifs with hquote hbackslash hline hreturn htab hback hfeed hcontrol
  -- the characters that have a letter of their own
  case pos => subst hquote; rfl
  case pos => subst hbackslash; rfl
  case pos => subst hline; rfl
  case pos => subst hreturn; rfl
  case pos => subst htab; rfl
  case pos => subst hback; rfl
  case pos => subst hfeed; rfl
  case pos => exact stringBody?_number (by omega) rest
  case neg => exact stringBody?_self hquote hbackslash hcontrol rest

/-- A string is read to its closing quote. -/
theorem stringBody?_escaped (cs rest : List Char) :
    stringBody? (cs.flatMap escapedChar ++ '"' :: rest) = some (cs.map .char, rest) := by
  induction cs with
  | nil => rfl
  | cons c cs ih =>
    rw [List.flatMap_cons, List.append_assoc, stringBody?_escapedChar, ih]
    rfl

theorem pair?_map_char (cs : List Char) : pair? (cs.map .char) = some cs := by
  induction cs with
  | nil => rfl
  | cons c cs ih =>
    rw [List.map_cons, pair?, ih]
    rfl

/-- The pieces of a string that was written are the string. -/
theorem ofPieces_map_char (s : String) : ofPieces (s.toList.map .char) = .string s := by
  rw [ofPieces, pair?_map_char]
  exact congrArg Json.string String.ofList_toList

/-! ## Numbers -/

/-- What may stand behind a value: nothing, a comma, or a closing bracket or brace. -/
def IsRest (cs : List Char) : Prop := ∀ c ∈ cs.head?, c = ',' ∨ c = ']' ∨ c = '}'

theorem isRest_nil : IsRest [] := nofun

/-- What stands behind a value does not belong to a number. -/
theorem IsRest.not_isDigit {cs : List Char} (h : IsRest cs) :
    ∀ c ∈ cs.head?, c.isDigit = false := by
  intro c hc
  rcases h c hc with rfl | rfl | rfl <;> rfl

/-- Digits are read up to a character that is none. -/
theorem digitRun_append {digits rest : List Char} (hdigits : ∀ c ∈ digits, c.isDigit = true)
    (hrest : ∀ c ∈ rest.head?, c.isDigit = false) : digitRun (digits ++ rest) = (digits, rest) := by
  have hnone : rest.takeWhile Char.isDigit = [] ∧ rest.dropWhile Char.isDigit = rest := by
    cases rest with
    | nil => exact ⟨rfl, rfl⟩
    | cons c rest => simp [hrest c rfl]
  rw [digitRun, List.takeWhile_append_of_pos hdigits, List.dropWhile_append_of_pos hdigits,
    hnone.1, hnone.2, List.append_nil]

namespace Number

/-- A number that follows the grammar: there are digits before the point, and a zero is their first
one only if it is their last. -/
structure IsSpelled (n : Number) : Prop where
  whole : ∀ c ∈ n.whole, c.isDigit = true
  whole_ne_nil : n.whole ≠ []
  leading : n.whole.head? = some '0' → n.whole = ['0']
  fraction : ∀ c ∈ n.fraction, c.isDigit = true

end Number

/-- The digits before the point are read up to what is no digit. -/
theorem wholePart?_append {n : Number} (h : n.IsSpelled) {rest : List Char}
    (hrest : ∀ c ∈ rest.head?, c.isDigit = false) :
    wholePart? (n.whole ++ rest) = some (n.whole, rest) := by
  unfold wholePart?
  rw [digitRun_append h.whole hrest]
  have hne := h.whole_ne_nil
  have hleading := h.leading
  generalize n.whole = whole at hne hleading ⊢
  split
  · next heq =>
    cases heq
    exact absurd rfl hne
  · next heq =>
    cases heq
    rfl
  · next hzero heq =>
    cases heq
    exact absurd (List.cons.inj (hleading rfl)).2 hzero
  · rfl

/-- The text of an exponent. -/
def exponentChars : Option Int → List Char
  | none => []
  | some e => 'e' :: (if e < 0 then '-' else '+') :: writeNat e.natAbs

/-- The text of a fraction. -/
def fractionChars (fraction : List Char) : List Char :=
  if fraction.isEmpty then [] else '.' :: fraction

/-- What stands behind the fraction is no digit and no point. -/
theorem head?_exponentChars_append (exponent : Option Int) {rest : List Char}
    (hrest : IsRest rest) :
    ∀ c ∈ (exponentChars exponent ++ rest).head?, c.isDigit = false ∧ c ≠ '.' := by
  intro c hc
  cases exponent with
  | none => rcases hrest c hc with rfl | rfl | rfl <;> decide
  | some e =>
    cases hc
    decide

/-- What stands behind the digits before the point is no digit. -/
theorem head?_fractionChars_append (fraction : List Char) {rest : List Char}
    (hrest : ∀ c ∈ rest.head?, c.isDigit = false ∧ c ≠ '.') :
    ∀ c ∈ (fractionChars fraction ++ rest).head?, c.isDigit = false := by
  intro c hc
  cases fraction with
  | nil => exact (hrest c hc).1
  | cons d ds =>
    cases hc
    rfl

/-- The digits after the point are read, or there are none and no point. -/
theorem fractionPart?_append {fraction rest : List Char}
    (hfraction : ∀ c ∈ fraction, c.isDigit = true)
    (hrest : ∀ c ∈ rest.head?, c.isDigit = false ∧ c ≠ '.') :
    fractionPart? (fractionChars fraction ++ rest) = some (fraction, rest) := by
  cases fraction with
  | nil =>
    show fractionPart? rest = _
    unfold fractionPart?
    split
    · exact absurd rfl (hrest '.' rfl).2
    · rfl
  | cons c cs =>
    have hrun := digitRun_append hfraction fun d hd => (hrest d hd).1
    show fractionPart? ('.' :: (c :: cs ++ rest)) = _
    unfold fractionPart?
    simp only [hrun]

theorem exponentPart?_append (exponent : Option Int) {rest : List Char} (hrest : IsRest rest) :
    exponentPart? (exponentChars exponent ++ rest) = some (exponent, rest) := by
  cases exponent with
  | none =>
    show exponentPart? rest = _
    cases rest with
    | nil => rfl
    | cons c rest => rcases hrest c rfl with rfl | rfl | rfl <;> rfl
  | some e =>
    have hdigit : ∀ c ∈ writeNat e.natAbs, c.isDigit = true := fun _ => isDigit_of_mem_writeNat
    have hrun := digitRun_append hdigit hrest.not_isDigit
    have hvalue := valueOf_writeNat e.natAbs
    obtain ⟨d, ds, hdigits⟩ := List.exists_cons_of_ne_nil
      (show writeNat e.natAbs ≠ [] from Nat.toDigits_ne_nil)
    rw [exponentChars, hdigits]
    rw [hdigits, List.cons_append] at hrun
    rw [hdigits] at hvalue
    by_cases hneg : e < 0
    · have hsize : -(e.natAbs : Int) = e := by omega
      rw [if_pos hneg]
      show exponentPart? ('e' :: '-' :: d :: (ds ++ rest)) = _
      simp only [exponentPart?, hrun, hvalue, hsize]
      rfl
    · have hsize : (e.natAbs : Int) = e := by omega
      rw [if_neg hneg]
      show exponentPart? ('e' :: '+' :: d :: (ds ++ rest)) = _
      simp only [exponentPart?, hrun, hvalue, hsize]
      rfl

/-- The text of a number starts with a digit or a minus. -/
theorem Number.IsSpelled.exists_cons {n : Number} (h : n.IsSpelled) :
    ∃ c cs, n.render = c :: cs ∧ isNumberChar c = true := by
  obtain ⟨d, ds, hd⟩ := List.exists_cons_of_ne_nil h.whole_ne_nil
  rw [Number.render, hd]
  cases n.negative with
  | true => exact ⟨'-', _, rfl, rfl⟩
  | false => exact ⟨d, _, rfl, isNumberChar_of_isDigit (h.whole d (hd ▸ List.mem_cons_self))⟩

theorem Number.render_append (n : Number) (rest : List Char) :
    n.render ++ rest = (if n.negative then ['-'] else []) ++
      (n.whole ++ (fractionChars n.fraction ++ (exponentChars n.exponent ++ rest))) := by
  simp only [Number.render, fractionChars, List.append_assoc]
  cases n.exponent <;> rfl

/-- A number is read up to what may stand behind a value. -/
theorem numberText?_render {n : Number} (h : n.IsSpelled) {rest : List Char} (hrest : IsRest rest) :
    numberText? (n.render ++ rest) = some (n, rest) := by
  have hexponent := exponentPart?_append n.exponent hrest
  have hbehind := head?_exponentChars_append n.exponent hrest
  have hfraction := fractionPart?_append h.fraction hbehind
  have hwhole := wholePart?_append h (head?_fractionChars_append n.fraction hbehind)
  obtain ⟨d, ds, hd⟩ := List.exists_cons_of_ne_nil h.whole_ne_nil
  have hdigit := h.whole d (hd ▸ List.mem_cons_self)
  unfold numberText?
  rw [n.render_append]
  cases hnegative : n.negative with
  | true =>
    simp only [if_true, List.singleton_append, hwhole, hfraction, hexponent, Option.bind_eq_bind,
      Option.bind_some]
    rw [← hnegative]
    rfl
  | false =>
    simp only [Bool.false_eq_true, if_false, List.nil_append]
    split
    · -- the first character is a digit
      next heq =>
      rw [hd] at heq
      rw [(List.cons.inj heq).1] at hdigit
      cases hdigit
    · simp only [hwhole, hfraction, hexponent, Option.bind_eq_bind, Option.bind_some]
      rw [← hnegative]
      rfl

/-! ## Trees -/

theorem skipSpace_cons {c : Char} {cs : List Char} (h : isSpace c = false) :
    skipSpace (c :: cs) = c :: cs := by
  simp [skipSpace, h]

/-- A tree that can be written so that it can be read: its numbers follow the grammar, and every
string in it has a value. -/
inductive IsSpelled : Json → Prop
  | null : IsSpelled .null
  | bool (b : Bool) : IsSpelled (.bool b)
  | number (n : Number) (h : n.IsSpelled) : IsSpelled (.number n)
  | string (s : String) : IsSpelled (.string s)
  | array (elements : List Json) (h : ∀ e ∈ elements, IsSpelled e) : IsSpelled (.array elements)
  | object (members : List (String × Json)) (h : ∀ m ∈ members, IsSpelled m.2) :
      IsSpelled (.object members)

/-- A tree that was written starts with a character that is neither blank nor a closing bracket. -/
theorem IsSpelled.exists_cons {json : Json} (h : json.IsSpelled) :
    ∃ c cs, json.compact = c :: cs ∧ isSpace c = false ∧ c ≠ ']' := by
  cases h with
  | null => exact ⟨_, _, rfl, rfl, by decide⟩
  | bool b => cases b <;> exact ⟨_, _, rfl, rfl, by decide⟩
  | number n h =>
    obtain ⟨c, cs, hrender, hchar⟩ := h.exists_cons
    have hc := of_isNumberChar (p := fun c => !isSpace c && c != ']') rfl hchar
    exact ⟨c, cs, hrender, by simpa using hc⟩
  | string s => exact ⟨_, _, rfl, rfl, by decide⟩
  | array elements h => cases elements <;> exact ⟨_, _, rfl, rfl, by decide⟩
  | object members h => cases members <;> exact ⟨_, _, rfl, rfl, by decide⟩

theorem isRest_compactElements (elements : List Json) (rest : List Char) :
    IsRest (compactElements elements ++ rest) := by
  intro c hc
  cases elements <;>
  · cases hc
    simp

theorem isRest_compactMembers (members : List (String × Json)) (rest : List Char) :
    IsRest (compactMembers members ++ rest) := by
  intro c hc
  cases members <;>
  · cases hc
    simp

/-- Elements are read up to their bracket, if each of them is read. -/
theorem elements?_compactElements {elements : List Json} {first : Json}
    (h : ∀ e ∈ first :: elements, ∀ steps rest, e.compact.length ≤ steps → IsRest rest →
      value? steps (e.compact ++ rest) = some (e, rest)) (steps : Nat)
    (hsteps : first.compact.length + (compactElements elements).length ≤ steps)
    (rest : List Char) :
    elements? steps (first.compact ++ (compactElements elements ++ rest)) =
      some (first :: elements, rest) := by
  induction elements generalizing first steps with
  | nil =>
    obtain _ | steps := steps
    · exact absurd hsteps (by simp [compactElements])
    · have hfirst := h first List.mem_cons_self steps (']' :: rest)
        (by simp [compactElements] at hsteps; omega) (isRest_compactElements [] rest)
      show elements? (steps + 1) (first.compact ++ ']' :: rest) = _
      rw [elements?, hfirst]
      rfl
  | cons second elements ih =>
    obtain _ | steps := steps
    · exact absurd hsteps (by simp [compactElements])
    · have hlength : (compactElements (second :: elements)).length =
          second.compact.length + (compactElements elements).length + 1 := by
        simp [compactElements]
      have hfirst := h first List.mem_cons_self steps _ (by omega)
        (isRest_compactElements (second :: elements) rest)
      have hrest := ih (fun e he => h e (List.mem_cons_of_mem first he)) steps (by omega)
      rw [elements?, hfirst]
      show (elements? steps (second.compact ++ compactElements elements ++ rest)).bind _ = _
      rw [List.append_assoc, hrest]
      rfl

theorem escaped_append (key : String) (rest : List Char) :
    escaped key ++ rest = '"' :: (key.toList.flatMap escapedChar ++ '"' :: rest) := by
  simp [escaped]

/-- After its key, the content of a member is read, and then the members behind it. -/
theorem members?_escaped (steps : Nat) (key : String) (cs : List Char) :
    members? (steps + 1) (escaped key ++ ':' :: cs) =
      (value? steps cs).bind fun (content, cs) =>
        match skipSpace cs with
        | '}' :: rest => some ([(.string key, content)], rest)
        | ',' :: rest =>
          (members? steps rest).bind fun (members, rest) =>
            some ((.string key, content) :: members, rest)
        | _ => none := by
  have hquote : ∀ cs, skipSpace ('"' :: cs) = '"' :: cs := fun _ => rfl
  have hcolon : ∀ cs, skipSpace (':' :: cs) = ':' :: cs := fun _ => rfl
  rw [escaped_append, members?, hquote]
  simp only [stringBody?_escaped, hcolon, ofPieces_map_char, Option.bind_eq_bind, Option.bind_some]
  rfl

/-- Members are read up to their brace, if what each of them contains is read. -/
theorem members?_compactMembers {members : List (String × Json)} {key : String} {content : Json}
    (h : ∀ m ∈ (key, content) :: members, ∀ steps rest, m.2.compact.length ≤ steps → IsRest rest →
      value? steps (m.2.compact ++ rest) = some (m.2, rest)) (steps : Nat)
    (hsteps : content.compact.length + (compactMembers members).length ≤ steps)
    (rest : List Char) :
    members? steps (escaped key ++ ':' :: (content.compact ++ (compactMembers members ++ rest))) =
      some (((key, content) :: members).map fun m => (.string m.1, m.2), rest) := by
  induction members generalizing key content steps with
  | nil =>
    obtain _ | steps := steps
    · exact absurd hsteps (by simp [compactMembers])
    · have hcontent := h _ List.mem_cons_self steps ('}' :: rest)
        (by simp [compactMembers] at hsteps; omega) (isRest_compactMembers [] rest)
      show members? (steps + 1) (escaped key ++ ':' :: (content.compact ++ '}' :: rest)) = _
      rw [members?_escaped, hcontent]
      rfl
  | cons second members ih =>
    obtain ⟨key', content'⟩ := second
    obtain _ | steps := steps
    · exact absurd hsteps (by simp [compactMembers])
    · have hlength : content'.compact.length + (compactMembers members).length <
          (compactMembers ((key', content') :: members)).length := by
        simp [compactMembers]
        omega
      have hcontent := h _ List.mem_cons_self steps _ (by dsimp only; omega)
        (isRest_compactMembers ((key', content') :: members) rest)
      have hrest := ih (fun m hm => h m (List.mem_cons_of_mem _ hm)) steps (by omega)
      have hcomma : compactMembers ((key', content') :: members) ++ rest = ',' ::
          (escaped key' ++ ':' :: (content'.compact ++ (compactMembers members ++ rest))) := by
        simp [compactMembers]
      rw [members?_escaped, hcontent, Option.bind_some, hcomma]
      show (members? steps _).bind _ = _
      rw [hrest]
      rfl

theorem ofMembers_map_string (members : List (String × Json)) :
    ofMembers (members.map fun m => (.string m.1, m.2)) = .object members := by
  unfold ofMembers
  rw [mapM_map_eq_some_iff.2]
  exact fun _ _ => rfl

/-- A tree that was written is read back, with what stands behind it left. -/
theorem value?_compact {json : Json} (h : json.IsSpelled) :
    ∀ steps rest, json.compact.length ≤ steps → IsRest rest →
      value? steps (json.compact ++ rest) = some (json, rest) := by
  induction h with
  | null =>
    intro steps rest hsteps hrest
    obtain _ | steps := steps
    · cases hsteps
    · rfl
  | bool b =>
    intro steps rest hsteps hrest
    obtain _ | steps := steps
    · cases b <;> cases hsteps
    · cases b <;> rfl
  | number n h =>
    intro steps rest hsteps hrest
    obtain ⟨c, cs, hrender, hchar⟩ := h.exists_cons
    obtain _ | steps := steps
    · rw [compact, hrender] at hsteps
      cases hsteps
    · have hread := numberText?_render h hrest
      rw [hrender, List.cons_append] at hread
      have hother := of_isNumberChar
        (p := fun c => !isSpace c && !(['n', 't', 'f', '"', '[', '{'].contains c)) rfl hchar
      obtain ⟨hspace, hother⟩ := Bool.and_eq_true_iff.1 hother
      rw [compact, hrender, List.cons_append, value?, skipSpace_cons (by simpa using hspace)]
      -- a number starts as nothing else does
      split
      case h_7 => rw [hread, Option.map_some]
      all_goals
        next heq =>
        rw [(List.cons.inj heq).1] at hother
        cases hother
  | string s =>
    intro steps rest hsteps hrest
    obtain _ | steps := steps
    · cases hsteps
    · rw [compact, escaped_append]
      show (stringBody? (s.toList.flatMap escapedChar ++ '"' :: rest)).map _ = _
      rw [stringBody?_escaped]
      exact congrArg (fun json => some (json, rest)) (ofPieces_map_char s)
  | array elements h ih =>
    intro steps rest hsteps hrest
    obtain _ | steps := steps
    · cases elements <;> cases hsteps
    · cases elements with
      | nil => rfl
      | cons first elements =>
        obtain ⟨c, cs, hfirst, hspace, hbracket⟩ := (h first List.mem_cons_self).exists_cons
        have hread := elements?_compactElements ih steps
          (by simp [compact] at hsteps; omega) rest
        have htext : (Json.array (first :: elements)).compact ++ rest =
            '[' :: (first.compact ++ (compactElements elements ++ rest)) := by
          simp [compact]
        rw [hfirst, List.cons_append] at hread htext
        rw [htext, value?, skipSpace_cons (by decide)]
        simp only [skipSpace_cons hspace]
        split
        · next heq => exact absurd (List.cons.inj heq).1 hbracket
        · rw [hread, Option.map_some]
  | object members h ih =>
    intro steps rest hsteps hrest
    obtain _ | steps := steps
    · cases members <;> cases hsteps
    · cases members with
      | nil => rfl
      | cons first members =>
        obtain ⟨key, content⟩ := first
        have hread := members?_compactMembers ih steps
          (by simp [compact] at hsteps; omega) rest
        have htext : (Json.object ((key, content) :: members)).compact ++ rest = '{' ::
            (escaped key ++ ':' :: (content.compact ++ (compactMembers members ++ rest))) := by
          simp [compact]
        rw [htext]
        rw [escaped_append] at hread ⊢
        show (members? steps _).map _ = _
        rw [hread]
        exact congrArg (fun json => some (json, rest)) (ofMembers_map_string _)

/-- Every tree that is spelled is read back from its text. -/
theorem parse?_compact {json : Json} (h : json.IsSpelled) :
    parse? (String.ofList json.compact) = some json := by
  have hread := value?_compact h (2 * json.compact.length + 2) [] (by omega) isRest_nil
  rw [List.append_nil] at hread
  rw [parse?, String.toList_ofList]
  simp only [hread]
  rfl

/-! ## The numbers that are written -/

/-- A number other than zero starts with another digit. -/
theorem head?_writeNat {n : Nat} (h : 0 < n) : (writeNat n).head? ≠ some '0' := by
  induction n using Nat.strongRecOn with
  | ind n ih =>
    rw [writeNat, Nat.toDigits_eq_if (by decide)]
    split
    · next hsmall =>
      interval_cases n <;> decide
    · next hlarge =>
      have hne : Nat.toDigits 10 (n / 10) ≠ [] := Nat.toDigits_ne_nil
      rw [List.head?_append_of_ne_nil _ hne]
      exact ih (n / 10) (by omega) (by omega)

/-- A number that is written out starts with a zero only if the point comes next. -/
theorem head?_positional {n : Scientific} (h : 0 < n.digits) :
    (positional n).head? ≠ some '0' ∨ ∃ cs, positional n = '0' :: '.' :: cs := by
  obtain ⟨digits, exponent⟩ := n
  have hne : writeNat digits ≠ [] := Nat.toDigits_ne_nil
  have hhead := head?_writeNat h
  unfold positional
  cases exponent with
  | ofNat zeros =>
    refine .inl ?_
    dsimp only
    rwa [List.append_assoc, List.head?_append_of_ne_nil _ hne]
  | negSucc n =>
    dsimp only
    split
    · next hplaces =>
      refine .inl ?_
      have hlength : (writeNat digits).length - (n + 1) ≠ 0 := by omega
      have htake : (writeNat digits).take ((writeNat digits).length - (n + 1)) ≠ [] := by
        simp [hlength, hne]
      rw [List.head?_append_of_ne_nil _ htake, List.head?_take, if_neg hlength]
      exact hhead
    · exact .inr ⟨_, rfl⟩

theorem atPoint_append {whole : List Char} (h : '.' ∉ whole) (fraction : List Char) :
    Number.atPoint (whole ++ '.' :: fraction) = (whole, fraction) := by
  have hne : ∀ c ∈ whole, decide (c ≠ '.') = true := by
    intro c hc
    exact decide_eq_true (ne_of_mem_of_not_mem hc h)
  rw [Number.atPoint, List.takeWhile_append_of_pos hne, List.dropWhile_append_of_pos hne]
  simp

/-- The digits before the point and those after it, of a number that is written out. -/
theorem exists_atPoint_positional {n : Scientific} (h : 0 < n.digits) :
    ∃ whole fraction, Number.atPoint (positional n) = (whole, fraction) ∧
      (∀ c ∈ whole, c.isDigit = true) ∧ whole ≠ [] ∧
      (whole.head? = some '0' → whole = ['0']) ∧ ∀ c ∈ fraction, c.isDigit = true := by
  obtain ⟨whole, fraction, hsplit, hne, hwhole, hfraction⟩ := isPointed_positional n
  have hpoint : '.' ∉ whole := by
    intro hmem
    have hdigit := hwhole '.' hmem
    cases hdigit
  refine ⟨whole, fraction, ?_, hwhole, hne, ?_, hfraction⟩
  · rw [hsplit, atPoint_append hpoint]
  · intro hhead
    rcases head?_positional h with hother | ⟨cs, hcs⟩
    · rw [hsplit, List.head?_append_of_ne_nil _ hne] at hother
      exact absurd hhead hother
    · obtain ⟨d, ds, rfl⟩ := List.exists_cons_of_ne_nil hne
      rw [hsplit] at hcs
      obtain ⟨rfl, htail⟩ := List.cons.inj hcs
      -- the point comes right after the zero
      cases ds with
      | nil => rfl
      | cons c ds =>
        obtain ⟨rfl, -⟩ := List.cons.inj htail
        exact absurd (List.mem_cons_of_mem _ List.mem_cons_self) hpoint

theorem Number.isSpelled_ofInt (n : Int) : (Number.ofInt n).IsSpelled := by
  refine ⟨fun _ => isDigit_of_mem_writeNat, Nat.toDigits_ne_nil, ?_, nofun⟩
  intro hhead
  rcases Nat.eq_zero_or_pos n.natAbs with hzero | hpos
  · show writeNat n.natAbs = ['0']
    rw [hzero]
    rfl
  · exact absurd hhead (head?_writeNat hpos)

/-- A finite float is spelled as numbers are, in either form. -/
theorem Number.isSpelled_ofFloat {x : Float} (h : x.isFinite = true) :
    (Number.ofFloat x).IsSpelled := by
  unfold Number.ofFloat
  split
  · exact ⟨isDigit_of_mem_zero, List.cons_ne_nil _ _, fun _ => rfl, isDigit_of_mem_zero⟩
  next hzero =>
  have hpos : 0 < magnitudeBits x := Nat.pos_of_ne_zero hzero
  have hbits := (isFinite_iff x).1 h
  have hdigits : 0 < (shortest .even (magnitudeBits x)).digits :=
    digits_pos_of_covers (spanOf_between hpos hbits).1 (covers_shortest .even hpos hbits)
  generalize shortest .even (magnitudeBits x) = s at hdigits ⊢
  dsimp only
  split
  · -- the plain form
    obtain ⟨whole, fraction, hpoint, hwhole, hne, hleading, hfraction⟩ :=
      exists_atPoint_positional hdigits
    rw [hpoint]
    exact ⟨hwhole, hne, hleading, hfraction⟩
  · -- one digit before the point
    obtain ⟨d, ds, hd⟩ := List.exists_cons_of_ne_nil
      (show writeNat s.digits ≠ [] from Nat.toDigits_ne_nil)
    have hall : ∀ c ∈ d :: ds, c.isDigit = true := hd ▸ fun _ => isDigit_of_mem_writeNat
    rw [hd]
    refine ⟨?_, List.cons_ne_nil _ _, ?_, fun c hc => hall c (List.mem_cons_of_mem d hc)⟩
    · intro c hc
      exact hall c (List.mem_of_mem_take hc)
    · intro hhead
      cases hhead
      rfl

end RecordStore.Json

import RecordStore.Proofs.Text.Bytes

/-!
# Byte positions in a text

A scan that walks over the bytes of a text reads one byte at a time and cuts the text where it has
found something. There is no byte behind the end of the text, and no cut within a character.

- `bytes`: the bytes of a text; `cutAt?`, `slice?`, `replaceRange?`: cuts at byte positions, which
  give nothing where there is no cut; `position?`: the byte at which a character stands;
- `At`: what is left of a text from a byte position on; `at_of_dropBytes?`,
  `exists_of_dropBytes?_eq_none`: the two kinds of positions;
- `At.exists_byte`: the byte at a position is a delimiter exactly if the character there is one, and
  the other bytes of a character are no delimiters;
- `exists_byte_inside`: neither does a delimiter stand within a character;
- `slice?_eq_some_iff`, `At.slice?`: what stands between two positions.
-/

namespace RecordStore.Text

/-! ## Definitions -/

/-- The bytes of a text in UTF-8. -/
def bytes (cs : List Char) : List UInt8 := cs.flatMap String.utf8EncodeChar

/-- The text before and after a byte position, if that is one between two characters. -/
def cutAt? : Nat → List Char → Option (List Char × List Char)
  | 0, cs => some ([], cs)
  | _ + 1, [] => none
  | n + 1, c :: cs =>
    if c.utf8Size ≤ n + 1 then
      (cutAt? (n + 1 - c.utf8Size) cs).map fun (before, after) => (c :: before, after)
    else none

/-- The text before, between and after two byte positions. -/
def cutOut? (start stop : Nat) (cs : List Char) : Option (List Char × List Char × List Char) :=
  if start ≤ stop then do
    let (before, rest) ← cutAt? start cs
    let (part, after) ← cutAt? (stop - start) rest
    return (before, part, after)
  else none

/-- The text between two byte positions. -/
def slice? (start stop : Nat) (cs : List Char) : Option (List Char) :=
  (cutOut? start stop cs).map fun (_, part, _) => part

/-- The text with another one in the place of what stands between two byte positions. -/
def replaceRange? (start stop : Nat) (replacement cs : List Char) : Option (List Char) :=
  (cutOut? start stop cs).map fun (before, _, after) => before ++ (replacement ++ after)

/-- The byte position of the first occurrence of a character. -/
def position? (c : Char) : List Char → Option Nat
  | [] => none
  | d :: ds => if d = c then some 0 else (position? c ds).map (d.utf8Size + ·)

/-! ## Bytes -/

@[simp] theorem bytes_nil : bytes [] = [] := rfl

@[simp] theorem bytes_cons (c : Char) (cs : List Char) :
    bytes (c :: cs) = String.utf8EncodeChar c ++ bytes cs := rfl

@[simp] theorem bytes_append (a b : List Char) : bytes (a ++ b) = bytes a ++ bytes b :=
  List.flatMap_append

@[simp] theorem length_bytes (cs : List Char) : (bytes cs).length = utf8Length cs := by
  induction cs with
  | nil => rfl
  | cons c cs ih => simp [ih]

/-- These are the bytes of a string. -/
theorem bytes_toList (s : String) : bytes s.toList = s.toUTF8.data.toList := by
  have hbytes := String.toByteArray_ofList (l := s.toList)
  rw [String.ofList_toList] at hbytes
  rw [String.toUTF8_eq_toByteArray, hbytes]
  simp [bytes, List.utf8Encode]

/-! ## Cuts -/

/-- A text is cut where one part of it ends. -/
theorem cutAt?_eq_some_iff {n : Nat} {cs before after : List Char} :
    cutAt? n cs = some (before, after) ↔ cs = before ++ after ∧ utf8Length before = n := by
  constructor
  · intro h
    fun_induction cutAt? n cs generalizing before after with
    | case1 cs =>
      cases h
      exact ⟨rfl, rfl⟩
    | case2 n => cases h
    | case3 n c cs hsize ih =>
      obtain ⟨⟨tail, rest⟩, htail, heq⟩ := Option.map_eq_some_iff.1 h
      cases heq
      obtain ⟨rfl, hlength⟩ := ih htail
      exact ⟨rfl, by rw [utf8Length_cons, hlength]; omega⟩
    | case4 n c cs hsize => cases h
  · rintro ⟨rfl, rfl⟩
    induction before with
    | nil => rw [utf8Length_nil, cutAt?, List.nil_append]
    | cons c before ih =>
      obtain ⟨n, hn⟩ : ∃ n, c.utf8Size + utf8Length before = n + 1 :=
        ⟨c.utf8Size + utf8Length before - 1, by have := c.utf8Size_pos; omega⟩
      have hrest : n + 1 - c.utf8Size = utf8Length before := by omega
      rw [utf8Length_cons, hn, List.cons_append, cutAt?, if_pos (by omega), hrest, ih]
      rfl

/-- A text can be cut just at the valid positions of the string. -/
theorem isSome_cutAt?_iff (n : Nat) (s : String) :
    (cutAt? n s.toList).isSome ↔ String.Pos.Raw.IsValid s ⟨n⟩ := by
  rw [Option.isSome_iff_exists, String.Pos.Raw.isValid_iff_exists_append]
  constructor
  · rintro ⟨⟨before, after⟩, hcut⟩
    obtain ⟨htext, rfl⟩ := cutAt?_eq_some_iff.1 hcut
    refine ⟨String.ofList before, String.ofList after, ?_, ?_⟩
    · rw [← String.ofList_append, ← htext, String.ofList_toList]
    · rw [String.rawEndPos, ← utf8Length_toList, String.toList_ofList]
  · rintro ⟨before, after, rfl, hn⟩
    refine ⟨(before.toList, after.toList), cutAt?_eq_some_iff.2 ⟨String.toList_append, ?_⟩⟩
    rw [utf8Length_toList]
    exact (congrArg String.Pos.Raw.byteIdx hn).symm

theorem cutOut?_eq_some_iff {start stop : Nat} {cs before part after : List Char} :
    cutOut? start stop cs = some (before, part, after) ↔
      cs = before ++ (part ++ after) ∧ utf8Length before = start ∧
        utf8Length (before ++ part) = stop := by
  unfold cutOut?
  constructor
  · intro h
    split at h
    · next hle =>
      obtain ⟨⟨before', rest⟩, hbefore, h⟩ := Option.bind_eq_some_iff.1 h
      obtain ⟨⟨part', after'⟩, hpart, h⟩ := Option.bind_eq_some_iff.1 h
      cases h
      obtain ⟨rfl, hstart⟩ := cutAt?_eq_some_iff.1 hbefore
      obtain ⟨rfl, hstop⟩ := cutAt?_eq_some_iff.1 hpart
      refine ⟨rfl, hstart, ?_⟩
      rw [utf8Length_append]
      omega
    · cases h
  · rintro ⟨rfl, rfl, rfl⟩
    have hlength : utf8Length (before ++ part) - utf8Length before = utf8Length part := by
      rw [utf8Length_append]
      omega
    have hbefore : cutAt? (utf8Length before) (before ++ (part ++ after)) =
        some (before, part ++ after) := cutAt?_eq_some_iff.2 ⟨rfl, rfl⟩
    have hpart : cutAt? (utf8Length part) (part ++ after) = some (part, after) :=
      cutAt?_eq_some_iff.2 ⟨rfl, rfl⟩
    rw [if_pos (by rw [utf8Length_append]; omega), hlength, hbefore]
    simp only [bind, Option.bind, hpart]
    rfl

/-- What stands between two byte positions. -/
theorem slice?_eq_some_iff {start stop : Nat} {cs part : List Char} :
    slice? start stop cs = some part ↔
      ∃ before after, cs = before ++ (part ++ after) ∧ utf8Length before = start ∧
        utf8Length (before ++ part) = stop := by
  simp only [slice?, Option.map_eq_some_iff, Prod.exists, cutOut?_eq_some_iff]
  constructor
  · rintro ⟨before, part, after, h, rfl⟩
    exact ⟨before, after, h⟩
  · rintro ⟨before, after, h⟩
    exact ⟨before, part, after, h, rfl⟩

theorem replaceRange?_append (before part after replacement : List Char) :
    replaceRange? (utf8Length before) (utf8Length (before ++ part)) replacement
      (before ++ (part ++ after)) = some (before ++ (replacement ++ after)) := by
  rw [replaceRange?, cutOut?_eq_some_iff.2 ⟨rfl, rfl, rfl⟩]
  rfl

/-- A character stands where the text is cut before it. -/
theorem position?_eq_map_cut? (c : Char) (cs : List Char) :
    position? c cs = (cut? c cs).map fun (before, _) => utf8Length before := by
  induction cs with
  | nil => rfl
  | cons d cs ih =>
    rw [position?, cut?]
    split
    · rfl
    · rw [ih, Option.map_map, Option.map_map]
      rfl

/-! ## What is left of a text -/

/-- From this byte position on the rest of a text is left. -/
def At (text : List Char) (i : Nat) (rest : List Char) : Prop :=
  ∃ before, text = before ++ rest ∧ utf8Length before = i

variable {text rest part : List Char} {i : Nat} {c : Char}

theorem At.start (text : List Char) : At text 0 text := ⟨[], rfl, rfl⟩

/-- The byte behind a part of the text. -/
theorem At.append (h : At text i (part ++ rest)) : At text (i + utf8Length part) rest := by
  obtain ⟨before, rfl, rfl⟩ := h
  exact ⟨before ++ part, (List.append_assoc _ _ _).symm, utf8Length_append _ _⟩

theorem At.tail (h : At text i (c :: rest)) : At text (i + c.utf8Size) rest := by
  have happend : At text i ([c] ++ rest) := h
  exact happend.append

theorem At.add_utf8Length (h : At text i rest) : i + utf8Length rest = (bytes text).length := by
  obtain ⟨before, rfl, rfl⟩ := h
  rw [length_bytes, utf8Length_append]

/-- The rest has no more characters than the text has bytes. -/
theorem At.length_le (h : At text i rest) : rest.length ≤ (bytes text).length := by
  have hrest : rest.length ≤ utf8Length rest := by
    clear h
    induction rest with
    | nil => exact Nat.le_refl _
    | cons c rest ih =>
      have hpos := c.utf8Size_pos
      rw [List.length_cons, utf8Length_cons]
      omega
  have hlength := h.add_utf8Length
  omega

theorem At.slice? (h : At text i (part ++ rest)) :
    slice? i (i + utf8Length part) text = some part := by
  obtain ⟨before, rfl, rfl⟩ := h
  exact slice?_eq_some_iff.2 ⟨before, rest, rfl, rfl, utf8Length_append _ _⟩

theorem At.drop_bytes (h : At text i rest) : (bytes text).drop i = bytes rest := by
  obtain ⟨before, rfl, rfl⟩ := h
  rw [bytes_append, ← length_bytes, List.drop_left]

/-- A position that is no cut of a text lies within a character. -/
theorem exists_of_dropBytes?_eq_none {n : Nat} {cs : List Char} (h : dropBytes? n cs = none) :
    ∃ before c after k, cs = before ++ c :: after ∧ 0 < k ∧ k < c.utf8Size ∧
      n = utf8Length before + k := by
  fun_induction dropBytes? n cs with
  | case1 cs => cases h
  | case2 n => cases h
  | case3 n c cs hsize ih =>
    obtain ⟨before, d, after, k, rfl, hpos, hk, hn⟩ := ih h
    exact ⟨c :: before, d, after, k, rfl, hpos, hk, by rw [utf8Length_cons]; omega⟩
  | case4 n c cs hsize => exact ⟨[], c, cs, n + 1, rfl, by omega, by omega, (Nat.zero_add _).symm⟩

/-- A position that is a cut of a text is followed by the rest, or by nothing behind the end. -/
theorem at_of_dropBytes? {n : Nat} {cs rest : List Char} (h : dropBytes? n cs = some rest) :
    At cs n rest ∨ rest = [] ∧ (bytes cs).length ≤ n := by
  fun_induction dropBytes? n cs with
  | case1 cs =>
    cases h
    exact .inl (.start _)
  | case2 n =>
    cases h
    exact .inr ⟨rfl, Nat.zero_le _⟩
  | case3 n c cs hsize ih =>
    rw [length_bytes] at ih ⊢
    rcases ih h with ⟨before, rfl, hn⟩ | ⟨rfl, hn⟩
    · exact .inl ⟨c :: before, rfl, by rw [utf8Length_cons, hn]; omega⟩
    · exact .inr ⟨rfl, by rw [utf8Length_cons]; omega⟩
  | case4 n c cs hsize => cases h

/-! ## One byte -/

theorem toNat_toUInt8 {c : Char} (h : c.toNat < 128) : c.toUInt8.toNat = c.toNat := by
  show c.val.toNat % 2 ^ 8 = c.val.toNat
  exact Nat.mod_eq_of_lt (Nat.lt_trans h (by decide))

theorem toUInt8_inj {c d : Char} (hc : c.toNat < 128) (hd : d.toNat < 128) :
    c.toUInt8 = d.toUInt8 ↔ c = d := by
  rw [← UInt8.toNat_inj, toNat_toUInt8 hc, toNat_toUInt8 hd]
  exact ⟨fun h => Char.ext (UInt32.toNat_inj.1 h), congrArg _⟩

/-- A byte with its highest bit set is no delimiter. -/
theorem ne_toUInt8 {b : UInt8} (h : 128 ≤ b.toNat) {d : Char} (hd : d.toNat < 128) :
    b ≠ d.toUInt8 := by
  rintro rfl
  rw [toNat_toUInt8 hd] at h
  omega

theorem utf8EncodeChar_of_lt {c : Char} (h : c.toNat < 128) :
    String.utf8EncodeChar c = [c.toUInt8] := by
  have hsmall : c.val.toNat ≤ 127 := Nat.le_of_lt_succ h
  rw [String.utf8EncodeChar]
  simp only [hsmall, if_true]
  rfl

/-- Above the ASCII characters every byte has its highest bit set. -/
theorem le_of_mem_utf8EncodeChar {c : Char} (h : 128 ≤ c.toNat) {b : UInt8}
    (hb : b ∈ String.utf8EncodeChar c) : 128 ≤ b.toNat := by
  have hlarge : ¬c.val.toNat ≤ 127 := Nat.not_le.2 h
  rw [String.utf8EncodeChar] at hb
  simp only [hlarge, if_false] at hb
  have hbit (n : Nat) (hle : 128 ≤ n) (hlt : n < 256) : 128 ≤ (UInt8.ofNat n).toNat := by
    rwa [UInt8.toNat_ofNat_of_lt' hlt]
  -- a lead byte for the length of the character, and six bits in each of the others
  split at hb
  · simp only [List.mem_cons, List.not_mem_nil, or_false] at hb
    rcases hb with rfl | rfl <;> exact hbit _ (by omega) (by omega)
  · split at hb
    · simp only [List.mem_cons, List.not_mem_nil, or_false] at hb
      rcases hb with rfl | rfl | rfl <;> exact hbit _ (by omega) (by omega)
    · simp only [List.mem_cons, List.not_mem_nil, or_false] at hb
      rcases hb with rfl | rfl | rfl | rfl <;> exact hbit _ (by omega) (by omega)

/-- The first byte of a character is a delimiter exactly if the character is that delimiter, and the
other bytes are greater than any delimiter. -/
theorem exists_utf8EncodeChar (c : Char) :
    ∃ first more, String.utf8EncodeChar c = first :: more ∧ (∀ b ∈ more, 128 ≤ b.toNat) ∧
      ∀ d : Char, d.toNat < 128 → (first = d.toUInt8 ↔ c = d) := by
  by_cases hc : c.toNat < 128
  · exact ⟨_, _, utf8EncodeChar_of_lt hc, List.forall_mem_nil _, fun d hd => toUInt8_inj hc hd⟩
  · have hlarge := fun b => le_of_mem_utf8EncodeChar (b := b) (Nat.not_lt.1 hc)
    cases hbytes : String.utf8EncodeChar c with
    | nil =>
      have hlength := String.length_utf8EncodeChar c
      rw [hbytes] at hlength
      exact absurd hlength (Nat.ne_of_lt c.utf8Size_pos)
    | cons first more =>
      rw [hbytes] at hlarge
      obtain ⟨hfirst, hmore⟩ := List.forall_mem_cons.1 hlarge
      refine ⟨first, more, rfl, hmore, fun d hd => ⟨?_, ?_⟩⟩
      · exact fun heq => absurd heq (ne_toUInt8 hfirst hd)
      · rintro rfl
        exact absurd hd hc

/-- Within a character there is no delimiter. -/
theorem exists_byte_inside (before after : List Char) {k : Nat} (hpos : 0 < k)
    (hk : k < c.utf8Size) :
    ∃ b, (bytes (before ++ c :: after))[utf8Length before + k]? = some b ∧ 128 ≤ b.toNat := by
  obtain ⟨first, more, hbytes, hmore, -⟩ := exists_utf8EncodeChar c
  obtain ⟨n, rfl⟩ := Nat.exists_eq_add_of_lt hpos
  have hlength : n < more.length := by
    rw [← String.length_utf8EncodeChar, hbytes, List.length_cons] at hk
    omega
  refine ⟨more[n], ?_, hmore _ (List.getElem_mem hlength)⟩
  rw [bytes_append, bytes_cons, hbytes, ← length_bytes, List.getElem?_append_right (by omega)]
  simp [List.getElem?_append_left hlength]

/-- What a walk does with bytes that it passes over. -/
theorem walk_append {β : Type} {walk : Nat → β} {bs more rest : List UInt8} {j : Nat}
    (hpass : ∀ j m, bs[j]? = some m → 128 ≤ m.toNat → walk j = walk (j + 1))
    (hdrop : bs.drop j = more ++ rest) (hmore : ∀ b ∈ more, 128 ≤ b.toNat) :
    walk j = walk (j + more.length) := by
  induction more generalizing j with
  | nil => rfl
  | cons m more ih =>
    obtain ⟨hm, hmore⟩ := List.forall_mem_cons.1 hmore
    have hbyte : bs[j]? = some m := by
      rw [← List.head?_drop, hdrop]
      rfl
    have htail : bs.drop (j + 1) = more ++ rest := by
      rw [← List.tail_drop, hdrop]
      rfl
    rw [hpass j m hbyte hm, ih htail hmore, List.length_cons, Nat.add_assoc, Nat.add_comm 1]

/-- A byte at the position of a character, and what a walk over bytes does with the others. -/
theorem At.exists_byte (h : At text i (c :: rest)) :
    ∃ b, (bytes text)[i]? = some b ∧ (∀ d : Char, d.toNat < 128 → (b = d.toUInt8 ↔ c = d)) ∧
      ∀ {β : Type} (walk : Nat → β),
        (∀ j m, (bytes text)[j]? = some m → 128 ≤ m.toNat → walk j = walk (j + 1)) →
          walk (i + 1) = walk (i + c.utf8Size) := by
  obtain ⟨first, more, hbytes, hmore, hfirst⟩ := exists_utf8EncodeChar c
  have hdrop := h.drop_bytes
  rw [bytes_cons, hbytes, List.cons_append] at hdrop
  refine ⟨first, ?_, hfirst, fun walk hpass => ?_⟩
  · rw [← List.head?_drop, hdrop]
    rfl
  · have htail : (bytes text).drop (i + 1) = more ++ bytes rest := by
      rw [← List.tail_drop, hdrop]
      rfl
    have hsize : c.utf8Size = 1 + more.length := by
      rw [← String.length_utf8EncodeChar, hbytes, List.length_cons, Nat.add_comm]
    rw [walk_append hpass htail hmore, hsize, Nat.add_assoc]

end RecordStore.Text

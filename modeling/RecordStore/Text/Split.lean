/-!
# Cutting and joining text

Small functions on lists of characters that every format of the store shares:

- `splitOn sep cs`: the parts between separators, always at least one (`join_splitOn`);
- `cut? sep cs`: the text before and after the first separator;
- `join sep parts`: the parts with a text between neighbours;
- `occursIn needle text`: whether `needle` is a run of consecutive characters of `text`
  (`occursIn_iff_isInfix`);
- `utf8Length cs`: the number of bytes the text takes in UTF-8, the unit of every file offset.
-/

namespace RecordStore.Text

/-- Puts a character at the front of the first part. -/
def extendFirst (c : Char) : List (List Char) → List (List Char)
  | [] => [[c]]
  | part :: parts => (c :: part) :: parts

/-- The parts of a text between the occurrences of `sep`. A text without it is its own only part. -/
def splitOn (sep : Char) : List Char → List (List Char)
  | [] => [[]]
  | c :: cs => if c = sep then [] :: splitOn sep cs else extendFirst c (splitOn sep cs)

/-- The text before the first `sep` and the text after it; nothing if there is none. -/
def cut? (sep : Char) : List Char → Option (List Char × List Char)
  | [] => none
  | c :: cs =>
    if c = sep then some ([], cs)
    else (cut? sep cs).map fun (before, after) => (c :: before, after)

/-- The parts in order, with `sep` between neighbours. -/
def join (sep : List Char) : List (List Char) → List Char
  | [] => []
  | [part] => part
  | part :: parts => part ++ sep ++ join sep parts

/-- Whether `needle` is a run of consecutive characters of the text. The empty one always is. -/
def occursIn (needle : List Char) : List Char → Bool
  | [] => needle.isEmpty
  | c :: cs => needle.isPrefixOf (c :: cs) || occursIn needle cs

/-- The number of bytes of the text in UTF-8. -/
def utf8Length : List Char → Nat
  | [] => 0
  | c :: cs => c.utf8Size + utf8Length cs

/-- ASCII letters in upper case, everything else as it is. -/
def upper (s : String) : String := String.ofList (s.toList.map Char.toUpper)

@[simp] theorem extendFirst_ne_nil (c : Char) (parts : List (List Char)) :
    extendFirst c parts ≠ [] := by
  cases parts <;> simp [extendFirst]

theorem splitOn_ne_nil (sep : Char) (cs : List Char) : splitOn sep cs ≠ [] := by
  cases cs with
  | nil => simp [splitOn]
  | cons c cs => unfold splitOn; split <;> simp

theorem join_extendFirst (sep : List Char) (c : Char) {parts : List (List Char)}
    (h : parts ≠ []) : join sep (extendFirst c parts) = c :: join sep parts := by
  match parts with
  | [] => exact absurd rfl h
  | [_] => rfl
  | _ :: _ :: _ => simp [extendFirst, join]

/-- Joining the parts again gives back the text. -/
theorem join_splitOn (sep : Char) (cs : List Char) : join [sep] (splitOn sep cs) = cs := by
  induction cs with
  | nil => rfl
  | cons c cs ih =>
    have hne := splitOn_ne_nil sep cs
    unfold splitOn
    split
    · next hc =>
      cases hs : splitOn sep cs with
      | nil => exact absurd hs hne
      | cons part parts => rw [hs] at ih; simp [join, ih, hc]
    · rw [join_extendFirst _ _ hne, ih]

/-- A text cut at its first separator is put together again by writing the separator back. -/
theorem eq_append_of_cut? {sep : Char} {cs before after : List Char}
    (h : cut? sep cs = some (before, after)) : cs = before ++ sep :: after := by
  induction cs generalizing before with
  | nil => simp [cut?] at h
  | cons c cs ih =>
    unfold cut? at h
    split at h
    · next hc => simp_all
    · obtain ⟨⟨b, a⟩, hb, hab⟩ := Option.map_eq_some_iff.1 h
      simp only [Prod.mk.injEq] at hab
      obtain ⟨rfl, rfl⟩ := hab
      simp [ih hb]

theorem length_lt_of_cut? {sep : Char} {cs before after : List Char}
    (h : cut? sep cs = some (before, after)) : after.length < cs.length := by
  rw [eq_append_of_cut? h, List.length_append, List.length_cons]
  omega

/-- A text occurs where it stands between two other parts of the text, which may be empty. -/
theorem occursIn_iff_isInfix {needle cs : List Char} :
    occursIn needle cs = true ↔ needle <:+: cs := by
  induction cs with
  | nil => rw [occursIn, List.isEmpty_iff, List.infix_nil]
  | cons c cs ih =>
    rw [occursIn, Bool.or_eq_true, List.isPrefixOf_iff_prefix, ih, List.infix_cons_iff]

@[simp] theorem utf8Length_nil : utf8Length [] = 0 := rfl

@[simp] theorem utf8Length_cons (c : Char) (cs : List Char) :
    utf8Length (c :: cs) = c.utf8Size + utf8Length cs := rfl

@[simp] theorem utf8Length_append (a b : List Char) :
    utf8Length (a ++ b) = utf8Length a + utf8Length b := by
  induction a with
  | nil => simp
  | cons c a ih => simp [ih, Nat.add_assoc]

end RecordStore.Text

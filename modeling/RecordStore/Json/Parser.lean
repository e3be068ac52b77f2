import RecordStore.Json.Basic

/-!
# Reading JSON

`Json.parse?` reads one value with blanks around it and nothing else. It follows the grammar of
JSON strictly: no leading zeros, no trailing commas, no control character inside a string.

- `stringBody?`: a string after its opening quote, as pieces: characters, and the code units of
  escaped surrogates;
- `pair?`: puts the halves of surrogate pairs together, and fails if one is alone;
- `numberText?`: the longest number at the start of a text;
- `value?`, `elements?`, `members?`: the three mutually recursive parts of the grammar. They take a
  bound on the number of steps, which twice the length of the text always satisfies.
-/

namespace RecordStore.Json

/-- The characters that may stand around every part of a JSON text. -/
def isSpace (c : Char) : Bool := c == ' ' || c == '\t' || c == '\n' || c == '\r'

/-- The text without the blanks it starts with. -/
def skipSpace (cs : List Char) : List Char := cs.dropWhile isSpace

/-! ## Strings -/

/-- A piece of a string: a character, or the code unit of half a surrogate pair. -/
inductive Piece where
  | char (c : Char)
  | half (unit : Nat)
  deriving DecidableEq, Repr

/-- The value of a hexadecimal digit in either case. -/
def hexValue? (c : Char) : Option Nat :=
  if c.isDigit then some (c.toNat - '0'.toNat)
  else if 'a' ≤ c && c ≤ 'f' then some (c.toNat - 'a'.toNat + 10)
  else if 'A' ≤ c && c ≤ 'F' then some (c.toNat - 'A'.toNat + 10)
  else none

/-- The value of four hexadecimal digits. -/
def hex4? (a b c d : Char) : Option Nat := do
  let a ← hexValue? a
  let b ← hexValue? b
  let c ← hexValue? c
  let d ← hexValue? d
  return ((a * 16 + b) * 16 + c) * 16 + d

/-- Whether a code unit is one of a surrogate pair. -/
def isHalf (unit : Nat) : Bool := 0xD800 ≤ unit && unit ≤ 0xDFFF

/-- The piece that a code unit stands for. -/
def pieceOf (unit : Nat) : Piece := if isHalf unit then .half unit else .char (Char.ofNat unit)

/-- The character that a letter after a backslash stands for. -/
def shortEscape? : Char → Option Char
  | '"' => some '"'
  | '\\' => some '\\'
  | '/' => some '/'
  | 'b' => some '\x08'
  | 'f' => some '\x0c'
  | 'n' => some '\n'
  | 'r' => some '\r'
  | 't' => some '\t'
  | _ => none

/-- Reads a string after its opening quote: its pieces and the text after its closing quote. -/
def stringBody? : List Char → Option (List Piece × List Char)
  | [] => none
  | '"' :: rest => some ([], rest)
  | '\\' :: 'u' :: a :: b :: c :: d :: rest => do
    let unit ← hex4? a b c d
    let (pieces, rest) ← stringBody? rest
    return (pieceOf unit :: pieces, rest)
  | '\\' :: letter :: rest => do
    let c ← shortEscape? letter
    let (pieces, rest) ← stringBody? rest
    return (.char c :: pieces, rest)
  | c :: rest => do
    if c = '\\' || c.toNat < 0x20 then none
    let (pieces, rest) ← stringBody? rest
    return (.char c :: pieces, rest)

/-- The characters of a string, if every half of a surrogate pair is followed by its partner. -/
def pair? : List Piece → Option (List Char)
  | [] => some []
  | .char c :: rest => (pair? rest).map (c :: ·)
  | .half high :: .half low :: rest =>
    if high < 0xDC00 && 0xDC00 ≤ low then
      (pair? rest).map (Char.ofNat (0x10000 + (high - 0xD800) * 0x400 + (low - 0xDC00)) :: ·)
    else none
  | .half _ :: _ => none

/-- A string as a tree. -/
def ofPieces (pieces : List Piece) : Json :=
  match pair? pieces with
  | some cs => ofChars cs
  | none => .unreadable

/-! ## Numbers -/

/-- The digits at the start of a text and the rest of it. -/
def digitRun (cs : List Char) : List Char × List Char :=
  (cs.takeWhile Char.isDigit, cs.dropWhile Char.isDigit)

/-- The digits before the point: a single zero, or digits that start with another one. -/
def wholePart? (cs : List Char) : Option (List Char × List Char) :=
  match digitRun cs with
  | ([], _) => none
  | (['0'], rest) => some (['0'], rest)
  | ('0' :: _, _) => none
  | run => some run

/-- The digits after a point, at least one; none if there is no point. -/
def fractionPart? : List Char → Option (List Char × List Char)
  | '.' :: cs =>
    match digitRun cs with
    | ([], _) => none
    | run => some run
  | cs => some ([], cs)

/-- The exponent after its mark, with an optional sign; nothing if there is no mark. -/
def exponentPart? : List Char → Option (Option Int × List Char)
  | c :: cs =>
    if c = 'e' || c = 'E' then
      let (negative, digits) := match cs with
        | '-' :: digits => (true, digits)
        | '+' :: digits => (false, digits)
        | digits => (false, digits)
      match digitRun digits with
      | ([], _) => none
      | (run, rest) =>
        let size : Int := Numeral.valueOf run
        some (some (if negative then -size else size), rest)
    else some (none, c :: cs)
  | [] => some (none, [])

/-- Reads the longest number at the start of a text. -/
def numberText? (cs : List Char) : Option (Number × List Char) := do
  let (negative, cs) := match cs with
    | '-' :: cs => (true, cs)
    | cs => (false, cs)
  let (whole, cs) ← wholePart? cs
  let (fraction, cs) ← fractionPart? cs
  let (exponent, cs) ← exponentPart? cs
  return ({ negative, whole, fraction, exponent }, cs)

/-! ## Values -/

/-- An object as a tree, given whether every key of it has a value. -/
def ofMembers (members : List (Json × Json)) : Json :=
  let keyed := members.mapM fun (key, content) =>
    match key with
    | .string name => some (name, content)
    | _ => none
  match keyed with
  | some members => .object members
  | none => .unreadable

mutual

/-- Reads a value at the start of a text. -/
def value? : Nat → List Char → Option (Json × List Char)
  | 0, _ => none
  | steps + 1, cs =>
    match skipSpace cs with
    | 'n' :: 'u' :: 'l' :: 'l' :: rest => some (.null, rest)
    | 't' :: 'r' :: 'u' :: 'e' :: rest => some (.bool true, rest)
    | 'f' :: 'a' :: 'l' :: 's' :: 'e' :: rest => some (.bool false, rest)
    | '"' :: rest => (stringBody? rest).map fun (pieces, rest) => (ofPieces pieces, rest)
    | '[' :: rest =>
      match skipSpace rest with
      | ']' :: rest => some (.array [], rest)
      | rest => (elements? steps rest).map fun (elements, rest) => (.array elements, rest)
    | '{' :: rest =>
      match skipSpace rest with
      | '}' :: rest => some (.object [], rest)
      | rest => (members? steps rest).map fun (members, rest) => (ofMembers members, rest)
    | cs => (numberText? cs).map fun (n, rest) => (.number n, rest)

/-- Reads elements up to the closing bracket. -/
def elements? : Nat → List Char → Option (List Json × List Char)
  | 0, _ => none
  | steps + 1, cs => do
    let (element, cs) ← value? steps cs
    match skipSpace cs with
    | ']' :: rest => return ([element], rest)
    | ',' :: rest =>
      let (elements, rest) ← elements? steps rest
      return (element :: elements, rest)
    | _ => none

/-- Reads members up to the closing brace. -/
def members? : Nat → List Char → Option (List (Json × Json) × List Char)
  | 0, _ => none
  | steps + 1, cs =>
    match skipSpace cs with
    | '"' :: cs => do
      let (pieces, cs) ← stringBody? cs
      match skipSpace cs with
      | ':' :: cs =>
        let (content, cs) ← value? steps cs
        match skipSpace cs with
        | '}' :: rest => return ([(ofPieces pieces, content)], rest)
        | ',' :: rest =>
          let (members, rest) ← members? steps rest
          return ((ofPieces pieces, content) :: members, rest)
        | _ => none
      | _ => none
    | _ => none

end

/-- Reads a text that is one JSON value with blanks around it. -/
def parse? (text : String) : Option Json :=
  let cs := text.toList
  match value? (2 * cs.length + 2) cs with
  | some (json, rest) => if (skipSpace rest).isEmpty then some json else none
  | none => none

end RecordStore.Json

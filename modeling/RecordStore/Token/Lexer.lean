import RecordStore.Error
import RecordStore.Text.Blank

/-!
# From text to tokens

`tokenize` cuts a query text into tokens. Blanks separate tokens and are otherwise skipped. Outside
brackets a word ends at a blank, a bracket or a comma, and may be a keyword. Between brackets a bare
value runs to the next comma or closing bracket, blanks inside it included and blanks at its end
dropped, and is never a keyword. A quote opens a quoted value only where a token starts.

`scan` does the work. It is given how many brackets are open; a text that ends inside a quoted value
is answered with the number of characters from the opening quote on.
-/

namespace RecordStore

namespace Token

open Text (isBlank)

/-- The characters that open and close a quoted value. -/
def isQuote (c : Char) : Bool := c == '\'' || c == '"'

/-- The characters that are a token of their own. -/
def isSymbol (c : Char) : Bool := c == '[' || c == ']' || c == ','

/-- Whether a character continues a word. -/
def inWord (c : Char) : Bool := !isBlank c && !isSymbol c

/-- Whether a character continues a bare value between brackets. -/
def inValue (c : Char) : Bool := c != ',' && c != ']'

/-- The token for a word outside brackets. -/
def ofWord (cs : List Char) : Token :=
  let word := String.ofList cs
  match Keyword.ofWord? word with
  | some k => .keyword k
  | none => .word word

/-- Cuts a text into tokens, given the number of open brackets. -/
def scan (depth : Nat) : List Char → Except Nat (List Token)
  | [] => .ok [.endOfInput]
  | c :: cs =>
    if isBlank c then scan depth cs
    else if c = '[' then (scan (depth + 1) cs).map (.leftBracket :: ·)
    else if c = ']' then (scan (depth - 1) cs).map (.rightBracket :: ·)
    else if c = ',' then (scan depth cs).map (.comma :: ·)
    else if isQuote c then
      match h : Text.cut? c cs with
      | none => .error (cs.length + 1)
      | some (text, rest) =>
        have : rest.length < cs.length := Text.length_lt_of_cut? h
        (scan depth rest).map (.quoted (String.ofList text) :: ·)
    else if 0 < depth then
      have := (cs.dropWhile_sublist inValue).length_le
      let value := Text.trimEnd (c :: cs.takeWhile inValue)
      (scan depth (cs.dropWhile inValue)).map (.word (String.ofList value) :: ·)
    else
      have := (cs.dropWhile_sublist inWord).length_le
      (scan depth (cs.dropWhile inWord)).map (ofWord (c :: cs.takeWhile inWord) :: ·)
termination_by cs => cs.length

end Token

/-- The tokens of a query text, the end of the input last. The position of an unclosed quote counts
the characters of the text without the blanks around it. -/
def tokenize (text : String) : Except ParseError (List Token) :=
  let cs := Text.trim text.toList
  match Token.scan 0 cs with
  | .ok tokens => .ok tokens
  | .error left => .error (.unterminatedQuote (cs.length - left))

end RecordStore

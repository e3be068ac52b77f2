/-!
# Replacing parts of a text

`splice` replaces byte ranges of a text. It takes the ranges in ascending order, so it passes over
the text once; `splitBytes` cuts a text after a number of bytes.
-/

namespace RecordStore.Text

/-- The first characters of a text, up to a number of bytes, and the others. -/
def splitBytes : Nat → List Char → List Char × List Char
  | 0, cs => ([], cs)
  | _ + 1, [] => ([], [])
  | n + 1, c :: cs =>
    let (before, after) := splitBytes (n + 1 - c.utf8Size) cs
    (c :: before, after)

/-- A text that replaces the bytes from `start` up to `stop`. -/
structure Edit where
  start : Nat
  stop : Nat
  replacement : List Char
  deriving DecidableEq, Repr

/-- The text, which stands at byte `pos`, with each edit made. Edits are in ascending order and do
not overlap. -/
def splice (pos : Nat) (cs : List Char) : List Edit → List Char
  | [] => cs
  | edit :: edits =>
    let (before, rest) := splitBytes (edit.start - pos) cs
    let (_, after) := splitBytes (edit.stop - edit.start) rest
    before ++ edit.replacement ++ splice edit.stop after edits

end RecordStore.Text

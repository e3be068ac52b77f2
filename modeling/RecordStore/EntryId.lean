import RecordStore.Text.Quoted

/-!
# Ids of new entries

A new entry gets an id of sixteen lower-case hexadecimal digits. `EntryId.ofWord` writes a 64-bit
word as one; `EntryId.stream` draws a sequence of them from a seed. The mixing steps can each be
undone, so ids drawn from one seed do not repeat.
-/

namespace RecordStore.EntryId

/-- A 64-bit word as sixteen hexadecimal digits. -/
def ofWord (word : UInt64) : String :=
  let digits := Text.hex word.toNat
  String.ofList (List.replicate (16 - digits.length) '0' ++ digits)

/-- Spreads the bits of a word. -/
def mix (word : UInt64) : UInt64 :=
  let a := (word ^^^ (word >>> 30)) * 0xBF58476D1CE4E5B9
  let b := (a ^^^ (a >>> 27)) * 0x94D049BB133111EB
  b ^^^ (b >>> 31)

/-- The ids that a seed gives, one for each number. -/
def stream (seed : UInt64) (n : Nat) : String :=
  ofWord (mix (seed + UInt64.ofNat n * 0x9E3779B97F4A7C15))

end RecordStore.EntryId

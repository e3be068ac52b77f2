/-!
# Integers in decimal digits

- `isNumeral cs`: one or more ASCII digits;
- `valueOf cs`: the number such digits denote, most significant first;
- `writeNat`, `writeInt`: the digits of a number without leading zeros, with `-` before a negative;
- `readInt?`: an optional sign and a numeral, so every text that `writeInt` writes
  (`readInt?_writeInt`);
- `readInt64?`: the same, within 64 bits;
- `readByte?`: an optional `+` and a numeral below 256.
-/

namespace RecordStore.Numeral

/-- One or more ASCII digits. -/
def isNumeral (cs : List Char) : Bool := !cs.isEmpty && cs.all Char.isDigit

/-- The number that decimal digits denote, the most significant first. -/
def valueOf (cs : List Char) : Nat := Nat.ofDigitChars 10 cs 0

/-- The decimal digits of a number, without leading zeros. -/
def writeNat (n : Nat) : List Char := Nat.toDigits 10 n

/-- The decimal digits of an integer, with `-` before a negative one. -/
def writeInt : Int → List Char
  | .ofNat n => writeNat n
  | .negSucc n => '-' :: writeNat (n + 1)

/-- Reads an optional sign followed by digits alone. -/
def readInt? : List Char → Option Int
  | '-' :: cs => if isNumeral cs then some (-(valueOf cs : Int)) else none
  | '+' :: cs => if isNumeral cs then some (valueOf cs) else none
  | cs => if isNumeral cs then some (valueOf cs) else none

/-- Whether an integer has a 64-bit two's complement form. -/
def fitsInt64 (n : Int) : Bool := Int64.minValue.toInt ≤ n && n ≤ Int64.maxValue.toInt

/-- Reads an integer that has a 64-bit form. -/
def readInt64? (cs : List Char) : Option Int64 :=
  (readInt? cs).bind fun n => if fitsInt64 n then some (Int64.ofInt n) else none

/-- The decimal digits of a 64-bit integer. -/
def writeInt64 (n : Int64) : List Char := writeInt n.toInt

/-- Reads an optional `+` and digits that denote a number below 256. -/
def readByte? (cs : List Char) : Option Nat :=
  let digits := match cs with
    | '+' :: rest => rest
    | _ => cs
  if isNumeral digits && valueOf digits < 256 then some (valueOf digits) else none

/-! ## What is written is read back -/

theorem isNumeral_writeNat (n : Nat) : isNumeral (writeNat n) = true := by
  have hne : Nat.toDigits 10 n ≠ [] := Nat.toDigits_ne_nil
  simp only [isNumeral, writeNat, Bool.and_eq_true, Bool.not_eq_true', List.isEmpty_eq_false_iff,
    List.all_eq_true]
  exact ⟨hne, fun c hc => Nat.isDigit_of_mem_toDigits (by decide) (by decide) hc⟩

@[simp] theorem valueOf_writeNat (n : Nat) : valueOf (writeNat n) = n :=
  Nat.ofDigitChars_ten_toDigits

/-- A numeral starts with no sign. -/
theorem readInt?_of_isNumeral {cs : List Char} (h : isNumeral cs = true) :
    readInt? cs = some (valueOf cs) := by
  unfold readInt?
  split
  · simp [isNumeral, Char.isDigit] at h
  · simp [isNumeral, Char.isDigit] at h
  · simp [h]

/-- Every integer is read back from its digits. -/
theorem readInt?_writeInt (n : Int) : readInt? (writeInt n) = some n := by
  cases n with
  | ofNat n => simp [writeInt, readInt?_of_isNumeral (isNumeral_writeNat n)]
  | negSucc n => simp [writeInt, readInt?, isNumeral_writeNat, Int.negSucc_eq]

/-- Every 64-bit integer is read back from its digits. -/
theorem readInt64?_writeInt64 (n : Int64) : readInt64? (writeInt64 n) = some n := by
  have h : fitsInt64 n.toInt = true := by
    simp only [fitsInt64, Bool.and_eq_true, decide_eq_true_eq]
    exact ⟨n.minValue_le_toInt, n.toInt_le⟩
  simp [readInt64?, writeInt64, readInt?_writeInt, h]

end RecordStore.Numeral

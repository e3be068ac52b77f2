import RecordStore.Numeral.Decimal

/-!
# JSON numbers

A JSON number is kept as it is spelled, since its spelling decides what can be read from it:

- `Number.toInt?`: only a number without point and exponent, within 64 bits, is an integer, and
  `-0` is none;
- `Number.toFloat?`: any number whose size a float can hold is a float. The digits are gathered
  into a 64-bit significand, so only about nineteen of them count, and the significand is then
  scaled by one power of ten (two for a very small one), each step rounded;
- `Number.ofInt`, `Number.ofFloat`: how numbers are written. A float has the shortest digits that
  read back; its first digit decides between plain and exponent form.
-/

namespace RecordStore.Json

open RecordStore.Numeral

/-- A number as it is spelled: sign, digits before the point, digits after it (none without a
point) and exponent. -/
structure Number where
  negative : Bool
  whole : List Char
  fraction : List Char
  exponent : Option Int
  deriving DecidableEq, Repr

namespace Number

/-! ## Reading -/

/-- The integer that the number spells, if it spells one of at most 64 bits. -/
def toInt? (n : Number) : Option Int :=
  let value := valueOf n.whole
  if !n.fraction.isEmpty || n.exponent.isSome then none
  else if n.negative then
    if 0 < value && fitsInt64 (-value) then some (-value) else none
  else if value < UInt64.size then some value
  else none

/-- Whether one more digit still fits a 64-bit significand. -/
def fits (significand : Nat) (digit : Char) : Bool :=
  significand * 10 + (digit.toNat - '0'.toNat) < UInt64.size

/-- Gathers digits into the significand while they fit, and counts the digits left over. -/
def gatherWhole (significand : Nat) : List Char → Nat × Nat
  | [] => (significand, 0)
  | digit :: digits =>
    if fits significand digit then
      gatherWhole (significand * 10 + (digit.toNat - '0'.toNat)) digits
    else (significand, digits.length + 1)

/-- Gathers digits into the significand while they fit, and counts the digits taken. -/
def gatherFraction (significand : Nat) : List Char → Nat × Nat
  | [] => (significand, 0)
  | digit :: digits =>
    if fits significand digit then
      let (total, taken) := gatherFraction (significand * 10 + (digit.toNat - '0'.toNat)) digits
      (total, taken + 1)
    else (significand, 0)

/-- The float nearest to a power of ten from 0 to 308. -/
def powerOfTen (n : Nat) : Float := nearest 1 n

/-- Scales a float by a power of ten. Beyond the largest float there is no result; towards zero
there always is one, in steps of 308 places. -/
def scale (x : Float) (exponent : Int) : Option Float :=
  if exponent < -308 then
    if x == 0.0 then some x else scale (x / powerOfTen 308) (exponent + 308)
  else if exponent < 0 then some (x / powerOfTen exponent.natAbs)
  else if exponent ≤ 308 then
    let scaled := x * powerOfTen exponent.natAbs
    if scaled.isInf then none else some scaled
  else if x == 0.0 then some x
  else none
termination_by exponent.natAbs

/-- The float that the number spells, unless it is too large. -/
def toFloat? (n : Number) : Option Float :=
  let (whole, dropped) := gatherWhole 0 n.whole
  let (significand, taken) := gatherFraction whole n.fraction
  let exponent := n.exponent.getD 0 + dropped - taken
  (scale (nearest significand 0) exponent).map fun x => if n.negative then -x else x

/-! ## Writing -/

/-- An integer as a number. -/
def ofInt (n : Int) : Number where
  negative := n < 0
  whole := writeNat n.natAbs
  fraction := []
  exponent := none

/-- The text before the first point and the text after it. -/
def atPoint (cs : List Char) : List Char × List Char :=
  (cs.takeWhile (· ≠ '.'), (cs.dropWhile (· ≠ '.')).drop 1)

/-- A finite float as a number: plain, with a point, if its first digit stands between the fifth
place after the point and the sixteenth before it, and else with one digit before the point and an
exponent. Of two shortest texts that are equally near, the one whose last digit is even is
written. -/
def ofFloat (x : Float) : Number :=
  if magnitudeBits x = 0 then
    { negative := hasSign x, whole := ['0'], fraction := ['0'], exponent := none }
  else
    let s := shortest .even (magnitudeBits x)
    let digits := writeNat s.digits
    let first := s.exponent + digits.length - 1
    if -5 ≤ first && first ≤ 15 then
      let (whole, fraction) := atPoint (positional s)
      { negative := hasSign x, whole, fraction, exponent := none }
    else
      { negative := hasSign x, whole := digits.take 1, fraction := digits.drop 1,
        exponent := some first }

/-- The text of a number. An exponent always has a sign. -/
def render (n : Number) : List Char :=
  let sign := if n.negative then ['-'] else []
  let fraction := if n.fraction.isEmpty then [] else '.' :: n.fraction
  let exponent := match n.exponent with
    | none => []
    | some e => 'e' :: (if e < 0 then '-' else '+') :: writeNat e.natAbs
  sign ++ n.whole ++ fraction ++ exponent

end Number

end RecordStore.Json

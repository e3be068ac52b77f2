import RecordStore.Numeral.Integer
import RecordStore.Numeral.Shortest

/-!
# Decimals as text

A decimal is a 64-bit float. Its text has the fewest digits that read back as it, always a point,
and never an exponent:

- `positional`: a number `digits * 10 ^ exponent` written out, `.0` added to a whole one;
- `writeDecimal`: a decimal as text; infinities and the undefined value are written `inf`, `-inf`
  and `NaN`, and a negative zero keeps its sign;
- `readDecimal?`: reads a wider form, with an optional sign, an optional point on either side of
  the digits, an optional exponent, or one of the names of the values that are not finite.
-/

namespace RecordStore.Numeral

/-- Positive infinity. -/
def infinity : Float := Float.ofBits (UInt64.ofNat infinityBits)

/-- The value of an undefined operation. -/
def undefined : Float := Float.ofBits 0x7FF8000000000000

/-- The weight of the sign among the bits of a float. -/
def signBit : Nat := 0x8000000000000000

/-- Whether a float has its sign bit set. A negative zero has it set. -/
def hasSign (x : Float) : Bool := signBit ≤ x.toBits.toNat

/-- The bits of a float without its sign. -/
def magnitudeBits (x : Float) : Nat := x.toBits.toNat % signBit

/-- The number written out with a point and at least one digit on each side of it. -/
def positional (s : Scientific) : List Char :=
  let digits := writeNat s.digits
  match s.exponent with
  | .ofNat zeros => digits ++ List.replicate zeros '0' ++ ['.', '0']
  | .negSucc n =>
    let places := n + 1
    if places < digits.length then
      digits.take (digits.length - places) ++ '.' :: digits.drop (digits.length - places)
    else ['0', '.'] ++ List.replicate (places - digits.length) '0' ++ digits

/-- The text of a float without its sign. Of two shortest texts that are equally near, the greater
number is written. -/
def writeMagnitude (x : Float) : List Char :=
  if magnitudeBits x = 0 then ['0', '.', '0'] else positional (shortest .up (magnitudeBits x))

/-- The text of a decimal: the shortest digits that read back, with a point and no exponent. -/
def writeDecimal (x : Float) : List Char :=
  if x.isNaN then "NaN".toList
  else
    let magnitude := if x.isFinite then writeMagnitude x else "inf".toList
    if hasSign x then '-' :: magnitude else magnitude

/-- The float nearest to `digits * 10 ^ exponent`. A number of more than 310 digits before the
point is infinite, and one that starts more than 330 places after it is zero. -/
def nearest (digits : Nat) (exponent : Int) : Float :=
  let top : Int := (writeNat digits).length + exponent
  if digits = 0 || top < -330 then 0.0
  else if 310 < top then infinity
  else
    let bits := match exponent with
      | .ofNat places => nearestBits (digits * Nat.pow 10 places) 1
      | .negSucc places => nearestBits digits (Nat.pow 10 (places + 1))
    Float.ofBits (UInt64.ofNat bits)

/-- Reads an exponent mark and an integer, or nothing at all. -/
def readExponent? : List Char → Option Int
  | [] => some 0
  | c :: cs => if c = 'e' || c = 'E' then readInt? cs else none

/-- Reads digits with at most one point among them and an optional exponent. -/
def readUnsigned? (cs : List Char) : Option Float :=
  let whole := cs.takeWhile Char.isDigit
  let rest := cs.dropWhile Char.isDigit
  let (fraction, rest) := match rest with
    | '.' :: after => (after.takeWhile Char.isDigit, after.dropWhile Char.isDigit)
    | _ => ([], rest)
  if whole.isEmpty && fraction.isEmpty then none
  else (readExponent? rest).map fun exponent =>
    nearest (valueOf (whole ++ fraction)) (exponent - fraction.length)

/-- Reads a number or, in letters of either case, `inf`, `infinity` or `nan`. -/
def readMagnitude? (cs : List Char) : Option Float :=
  (readUnsigned? cs).or <|
    let name := cs.map Char.toLower
    if name = "inf".toList || name = "infinity".toList then some infinity
    else if name = "nan".toList then some undefined
    else none

/-- Reads a decimal with an optional sign. -/
def readDecimal? : List Char → Option Float
  | '-' :: cs => (readMagnitude? cs).map (- ·)
  | '+' :: cs => readMagnitude? cs
  | cs => readMagnitude? cs

end RecordStore.Numeral

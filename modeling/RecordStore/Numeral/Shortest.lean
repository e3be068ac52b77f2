import RecordStore.Numeral.Nearest

/-!
# The shortest digits of a decimal number

A finite binary fraction stands for every real number that rounds to it. `shortest` picks, among
the decimal numbers with the fewest digits in that interval, the one nearest to the fraction.

- `Span`: the fraction, the two ends of its interval and whether they belong to it, as numerators
  over one denominator;
- `span`: the span of a positive finite float, read off its bits;
- `Span.contains`, `Span.candidate?`: the test of a number on a decimal grid, and the better of
  the two neighbours of the fraction on that grid;
- `shortest`: the first grid, from the coarsest on, with a neighbour in the interval.

The result is `digits * 10 ^ exponent`, with no trailing zero in `digits`. A `Tie` says which of two
neighbours is taken that are equally near, as 0.2 and 0.3 are to the fraction of 2 ^ 50 + 0.25.
-/

namespace RecordStore.Numeral

/-- A decimal number `digits * 10 ^ exponent`. -/
structure Scientific where
  digits : Nat
  exponent : Int
  deriving DecidableEq, Repr

/-- A positive fraction and the interval of the numbers that round to it. The three numerators are
over `unit`; the ends belong to the interval if it is `closed`. -/
structure Span where
  low : Nat
  value : Nat
  high : Nat
  unit : Nat
  closed : Bool
  deriving DecidableEq, Repr

/-- Which of two equally near decimal numbers is taken: the greater one, or the one whose last digit
is even. -/
inductive Tie where
  | up
  | even
  deriving DecidableEq, Repr

/-- The span of the positive float with this exponent field and fraction field. Just above a power
of two the next float below is only half as far away as the next one above. -/
def span (exponentField fraction : Nat) : Span :=
  let significand := if exponentField = 0 then fraction else fraction + leadingBit
  let below := if fraction = 0 && 1 < exponentField then 1 else 2
  let power := max exponentField 1
  let scale := if 1077 ≤ power then Nat.pow 2 (power - 1077) else 1
  let unit := if 1077 ≤ power then 1 else Nat.pow 2 (1077 - power)
  { low := (4 * significand - below) * scale
    value := 4 * significand * scale
    high := (4 * significand + 2) * scale
    unit
    closed := significand % 2 == 0 }

namespace Span

/-- Whether `n * 10 ^ exponent` lies in the interval. -/
def contains (s : Span) (n : Nat) (exponent : Int) : Bool :=
  let point := n * s.unit * Nat.pow 10 exponent.toNat
  let scale := Nat.pow 10 (-exponent).toNat
  if s.closed then s.low * scale ≤ point && point ≤ s.high * scale
  else s.low * scale < point && point < s.high * scale

/-- Whether the lower neighbour `below` is taken before the upper one, given what the fraction has
above it and the distance between the two. -/
def prefersBelow (tie : Tie) (below above step : Nat) : Bool :=
  2 * above < step || (2 * above == step && tie == .even && below % 2 == 0)

/-- The multiple of `10 ^ exponent` in the interval that is nearest to the fraction. -/
def candidate? (s : Span) (tie : Tie) (exponent : Int) : Option Scientific :=
  let value := s.value * Nat.pow 10 (-exponent).toNat
  let step := s.unit * Nat.pow 10 exponent.toNat
  let below := value / step
  let nearer :=
    if prefersBelow tie below (value % step) step then [below, below + 1] else [below + 1, below]
  (nearer.find? (s.contains · exponent)).map ({ digits := ·, exponent })

/-- An exponent `t`, at most two too large, for which the fraction is below `10 ^ t`: the binary
logarithm times 0.30103, rounded up. -/
def magnitude (s : Span) : Int :=
  ((s.value.log2 : Int) - s.unit.log2 + 1) * 30103 / 100000 + 2

end Span

/-- Moves the trailing zeros of the digits into the exponent, at most `fuel` of them. -/
def dropZeros : Nat → Scientific → Scientific
  | 0, s => s
  | fuel + 1, s =>
    if s.digits % 10 = 0 && s.digits ≠ 0 then
      dropZeros fuel { digits := s.digits / 10, exponent := s.exponent + 1 }
    else s

/-- The grids of one digit upwards, the coarsest first. -/
def Span.grids (s : Span) : List Int :=
  (List.range 20).map fun n => s.magnitude - (n + 1 : Nat)

/-- The fewest digits that read back as the positive finite float with these bits, nearest to it.
If no grid had a hit, every digit of the fraction would be written. -/
def shortest (tie : Tie) (bits : Nat) : Scientific :=
  let s := span (bits / leadingBit % 2048) (bits % leadingBit)
  match s.grids.findSome? (s.candidate? tie) with
  | some found => dropZeros 20 found
  | none => { digits := s.value * Nat.pow 5 s.unit.log2, exponent := -s.unit.log2 }

end RecordStore.Numeral

/-!
# The float nearest to a fraction

The positive finite floats are the multiples of a smallest one whose significand has at most 53
bits, and the bits of a float are the number of its place among them. `nearestBits` rounds a
fraction to the nearest float, and to the one with the even significand if two are equally near.

- `roundHalfEven`: the whole number nearest to a fraction, the even one of two;
- `nearestBits`: the bits of the float nearest to a fraction, those of infinity if it is too large.
-/

namespace RecordStore.Numeral

/-- The whole number nearest to `n / d`, the even one of two. -/
def roundHalfEven (n d : Nat) : Nat :=
  let q := n / d
  let r := n % d
  if 2 * r < d || (2 * r == d && q % 2 == 0) then q else q + 1

/-- The leading bit of a normal significand, which a float does not store. -/
def leadingBit : Nat := 0x10000000000000

/-- The bits of positive infinity. -/
def infinityBits : Nat := 0x7FF0000000000000

/-- The bits of the float nearest to `n / d`. The smallest positive float is 2 to the -1074. Each
`step` beyond 53 bits doubles the distance between neighbours and adds one to the exponent, which
stands above the 52 stored bits of the significand; a significand that is rounded up to the next
power of two carries into it. -/
def nearestBits (n d : Nat) : Nat :=
  let n := n * Nat.pow 2 1074
  let step := (n / d).log2 - 52
  min infinityBits (step * leadingBit + roundHalfEven n (d * Nat.pow 2 step))

end RecordStore.Numeral

import RecordStore.Numeral.Decimal
import RecordStore.StorageType

/-!
# Values

A value is a 64-bit integer, a 64-bit decimal or a string. `Value.text` is how it is printed;
`Value.number?` is the number by which it is compared, and `Value.alike` the comparison of values
in which decimals are compared as numbers: the two zeros are alike, the undefined decimal is not
like itself.
-/

namespace RecordStore

/-- What one column of an entry holds. -/
inductive Value where
  | int (n : Int64)
  | dec (x : Float)
  | str (s : String)
  deriving DecidableEq, Repr

namespace Value

/-- The integer, if the value is one. -/
def asInt? : Value → Option Int64
  | int n => some n
  | _ => none

/-- The decimal, if the value is one. -/
def asDec? : Value → Option Float
  | dec x => some x
  | _ => none

/-- The string, if the value is one. -/
def asStr? : Value → Option String
  | str s => some s
  | _ => none

/-- The value as a decimal, if it is a number. -/
def number? : Value → Option Float
  | int n => some (Float.ofInt n.toInt)
  | dec x => some x
  | str _ => none

/-- The type of the columns that hold such a value. -/
def storageType : Value → StorageType
  | int _ => .integer
  | dec _ => .decimal
  | str _ => .string

/-- The text of the value: digits, the shortest digits that read back, or the string itself. -/
def text : Value → String
  | int n => String.ofList (Numeral.writeInt64 n)
  | dec x => String.ofList (Numeral.writeDecimal x)
  | str s => s

/-- Whether two values are equal, decimals compared as numbers. -/
def alike : Value → Value → Bool
  | int m, int n => m == n
  | dec x, dec y => x == y
  | str s, str t => s == t
  | _, _ => false

end Value

end RecordStore

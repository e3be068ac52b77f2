import RecordStore.Entry
import RecordStore.Query
import RecordStore.Schema

/-!
# Conditions on entries

A dependency of a query names a column and spells a literal. Against a schema it becomes a
`Condition`, which knows the position of the column and what the value there is compared with:

- in a string column, or with a quoted literal, `IS` and `NOT` compare texts;
- in a numeric column a bare literal must be a number in range. Two integers are compared exactly,
  any other two numbers are equal if they differ by less than `tolerance`;
- `INCLUDES` and `EXCLUDES` look for the literal in the text of the value, of any type.

A dependency that cannot become a condition has a `DependencyFault`.
-/

namespace RecordStore

/-- What a condition compares values with. -/
inductive Operand where
  | int (n : Int64)
  | dec (x : Float)
  | text (s : String)
  deriving DecidableEq, Repr

/-- Why a dependency cannot be checked. -/
inductive DependencyFault where
  | noSuchColumn
  | outOfRange (text : String)
  | incomparable (text : String) (type : StorageType)
  deriving DecidableEq, Repr

/-- The fault in words. -/
def DependencyFault.message : DependencyFault → String
  | noSuchColumn => "no such column"
  | outOfRange text => Text.quote text ++ " is out of range"
  | incomparable text type =>
    Text.quote text ++ " cannot be compared with a " ++ type.label ++ " column"

/-- Two numbers that are not both integers are equal if they differ by less than 2 to the -52. -/
def tolerance : Float := Float.ofBits 0x3CB0000000000000

/-- Whether two numbers differ by less than the tolerance. -/
def near (x y : Float) : Bool := (x - y).abs < tolerance

namespace Operand

/-- The number that a bare literal spells. -/
def ofNumeral (l : Literal) (type : StorageType) : Except DependencyFault Operand :=
  match l.classify with
  | .string => .error (.incomparable l.text type)
  | .integer =>
    match Numeral.readInt64? l.text.toList with
    | some n => .ok (.int n)
    | none => .error (.outOfRange l.text)
  | .decimal =>
    match (Numeral.readDecimal? l.text.toList).filter Float.isFinite with
    | some x => .ok (.dec x)
    | none => .error (.outOfRange l.text)

/-- What the values of a column of this type are compared with for equality. -/
def ofLiteral (l : Literal) (type : StorageType) : Except DependencyFault Operand :=
  if l.quoted || !type.isNumeric then .ok (.text l.text) else ofNumeral l type

/-- Whether a value equals the operand. -/
def equals (o : Operand) (v : Value) : Bool :=
  match v, o with
  | .int m, .int n => m == n
  | v, .text s => v.text == s
  | v, .int n => v.number?.any (near · (Float.ofInt n.toInt))
  | v, .dec y => v.number?.any (near · y)

/-- Whether the text of a value contains the operand, if that is a text. -/
def occursIn (o : Operand) (v : Value) : Bool :=
  match o with
  | .text s => Text.occursIn s.toList v.text.toList
  | _ => false

end Operand

/-- A dependency resolved against a schema. -/
structure Condition where
  position : Nat
  comparator : Comparator
  operand : Operand
  deriving DecidableEq, Repr

namespace Condition

/-- Resolves a dependency against a schema. -/
def ofDependency (schema : Schema) (d : Dependency) : Except DependencyFault Condition :=
  match schema.find? d.column with
  | none => .error .noSuchColumn
  | some (position, column) =>
    let operand : Except DependencyFault Operand := match d.comparator with
      | .contains | .notContains => .ok (.text d.value.text)
      | .equals | .notEquals => Operand.ofLiteral d.value column.type
    operand.map fun operand => { position, comparator := d.comparator, operand }

/-- Whether a value satisfies the condition. -/
def accepts (c : Condition) (v : Value) : Bool :=
  match c.comparator with
  | .equals => c.operand.equals v
  | .notEquals => !c.operand.equals v
  | .contains => c.operand.occursIn v
  | .notContains => !c.operand.occursIn v

/-- Whether an entry of the schema's columns satisfies the condition. -/
def holds (c : Condition) (e : Entry) : Bool :=
  match e.data[c.position]? with
  | some (_, value) => c.accepts value
  | none => false

end Condition

end RecordStore

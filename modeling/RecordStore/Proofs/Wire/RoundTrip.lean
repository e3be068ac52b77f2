import RecordStore.Proofs.Json.RoundTrip
import RecordStore.Wire.Entry
import RecordStore.Wire.Error
import RecordStore.Wire.Query

/-!
# Queries, errors and entries are read from their trees

The tree of a value names its constructor and its fields, and the reader asks for the same names. So
each type is read back from its tree, part by part. Two kinds of parts are not kept by all means: a
count has to fit 64 bits, and a decimal has to be what its digits are read as.

- `IsSpelled` for every tree (`isSpelled_toJson`), so it is also read back from its text;
- `Query.ofJson?_toJson`, `Query.readable_toJson`: queries are read back, and kept until then;
- `ParseError.CountsFit`, `QueryError.CountsFit`: the counts in an error fit 64 bits;
  `QueryError.ofJson?_toJson`: such an error is read back;
- `Json.KeepsFloat`: a decimal is read from its digits; `Entry.ofJson?_toJson_iff`: an entry is read
  back exactly if its decimals are.
-/

namespace RecordStore

namespace Json

/-! ## Trees that are spelled -/

@[simp] theorem isSpelled_null : IsSpelled .null := .null

@[simp] theorem isSpelled_bool (b : Bool) : IsSpelled (.bool b) := .bool b

@[simp] theorem isSpelled_string (s : String) : IsSpelled (.string s) := .string s

@[simp] theorem isSpelled_int (n : Int) : IsSpelled (.int n) :=
  .number _ (Number.isSpelled_ofInt n)

@[simp] theorem isSpelled_float (x : Float) : IsSpelled (.float x) := by
  unfold float
  split
  · next hfinite => exact .number _ (Number.isSpelled_ofFloat hfinite)
  · exact .null

@[simp] theorem isSpelled_array_iff {elements : List Json} :
    IsSpelled (.array elements) ↔ ∀ e ∈ elements, e.IsSpelled := by
  constructor
  · rintro ⟨⟩
    assumption
  · exact .array elements

@[simp] theorem isSpelled_object_iff {members : List (String × Json)} :
    IsSpelled (.object members) ↔ ∀ m ∈ members, m.2.IsSpelled := by
  constructor
  · rintro ⟨⟩
    assumption
  · exact .object members

@[simp] theorem isSpelled_tagged_iff {name : String} {content : Json} :
    IsSpelled (.tagged name content) ↔ content.IsSpelled := by
  simp [tagged]

/-! ## Trees that are kept -/

theorem readableElements_iff {depth : Nat} {elements : List Json} :
    readableElements depth elements = true ↔ ∀ e ∈ elements, e.readable depth = true := by
  induction elements with
  | nil => simp [readableElements]
  | cons e elements ih => simp [readableElements, ih]

theorem readable_array_iff {depth : Nat} {elements : List Json} :
    readable (depth + 1) (.array elements) = true ↔ ∀ e ∈ elements, e.readable depth = true :=
  readableElements_iff

/-! ## Numbers -/

/-- An integer is read back if it fits 64 bits, with or without sign. -/
theorem toInt?_ofInt {n : Int} (hlow : Int64.minValue.toInt ≤ n) (hhigh : n < UInt64.size) :
    (Number.ofInt n).toInt? = some n := by
  have hsize : ((UInt64.size : Nat) : Int) = 18446744073709551616 := rfl
  have hmin : Int64.minValue.toInt = -9223372036854775808 := rfl
  have hmax : Int64.maxValue.toInt = 9223372036854775807 := rfl
  simp only [Number.toInt?, Number.ofInt, Numeral.valueOf_writeNat, List.isEmpty_nil,
    Option.isSome_none, Bool.not_true, Bool.or_false, Bool.false_eq_true, if_false,
    Numeral.fitsInt64, Bool.and_eq_true, decide_eq_true_eq]
  by_cases hneg : n < 0
  · rw [if_pos hneg, if_pos (by omega)]
    congr 1
    omega
  · rw [if_neg hneg, if_pos (by omega)]
    congr 1
    omega

theorem int?_int {n : Int} (hlow : Int64.minValue.toInt ≤ n) (hhigh : n < UInt64.size) :
    int? (.int n) = some n :=
  toInt?_ofInt hlow hhigh

theorem count?_int {n : Nat} (h : n < UInt64.size) : count? (.int n) = some n := by
  have hmin : Int64.minValue.toInt = -9223372036854775808 := rfl
  rw [count?, int?_int (by omega) (by omega), Option.bind_some, if_pos (by omega),
    Int.toNat_natCast]

theorem word?_int (w : UInt64) : word? (.int w.toNat) = some w := by
  rw [word?, count?_int w.toNat_lt, Option.map_some, UInt64.ofNat_toNat]

theorem int64?_int (n : Int64) : int64? (.int n.toInt) = some n := by
  have hsize : ((UInt64.size : Nat) : Int) = 18446744073709551616 := rfl
  have hmax : Int64.maxValue.toInt = 9223372036854775807 := rfl
  have hle := n.toInt_le
  have hge := n.minValue_le_toInt
  have hfits : Numeral.fitsInt64 n.toInt = true := by
    simp only [Numeral.fitsInt64, Bool.and_eq_true, decide_eq_true_eq]
    exact ⟨hge, hle⟩
  rw [int64?, int?_int hge (by omega), Option.bind_some, if_pos hfits, Int64.ofInt_toInt]

/-- A decimal is finite and is read from the digits that are written for it. -/
def KeepsFloat (x : Float) : Prop := x.isFinite = true ∧ (Number.ofFloat x).toFloat? = some x

instance (x : Float) : Decidable (KeepsFloat x) := inferInstanceAs (Decidable (_ ∧ _))

theorem float?_float_iff {x : Float} : float? (.float x) = some x ↔ KeepsFloat x := by
  unfold float KeepsFloat
  split
  · next hfinite => simp [float?, hfinite]
  · next hfinite => simp [float?, hfinite]

end Json

/-! ## Queries -/

@[simp] theorem Literal.isSpelled_toJson (l : Literal) : l.toJson.IsSpelled := by
  simp [Literal.toJson]

theorem Literal.ofJson?_toJson (l : Literal) : Literal.ofJson? l.toJson = some l := rfl

theorem Literal.readable_toJson (depth : Nat) (l : Literal) :
    l.toJson.readable (depth + 1) = true := rfl

theorem Comparator.ofJson?_label (c : Comparator) :
    Comparator.ofJson? (.string c.label) = some c := by
  cases c <;> rfl

@[simp] theorem Dependency.isSpelled_toJson (d : Dependency) : d.toJson.IsSpelled := by
  simp [Dependency.toJson]

theorem Dependency.ofJson?_toJson (d : Dependency) : Dependency.ofJson? d.toJson = some d := by
  obtain ⟨column, comparator, value⟩ := d
  show (do
    return Dependency.mk column (← Comparator.ofJson? (.string comparator.label))
      (← Literal.ofJson? value.toJson)) = _
  rw [Comparator.ofJson?_label, Literal.ofJson?_toJson]
  rfl

theorem Dependency.readable_toJson (depth : Nat) (d : Dependency) :
    d.toJson.readable (depth + 2) = true := rfl

@[simp] theorem Target.isSpelled_toJson (t : Target) : t.toJson.IsSpelled := by
  cases t <;> simp [Target.toJson]

theorem Target.ofJson?_toJson (t : Target) : Target.ofJson? t.toJson = some t := by
  cases t with
  | entry id => rfl
  | dependencies ds =>
    have hds := mapM_map_eq_some_iff.2 fun d (_ : d ∈ ds) => d.ofJson?_toJson
    show (do return Target.dependencies (← (ds.map Dependency.toJson).mapM Dependency.ofJson?)) = _
    rw [hds]
    rfl

theorem Target.readable_toJson (depth : Nat) (t : Target) :
    t.toJson.readable (depth + 4) = true := by
  cases t with
  | entry id => rfl
  | dependencies ds =>
    have hds : (Json.array (ds.map Dependency.toJson)).readable (depth + 3) = true := by
      refine Json.readable_array_iff.2 ?_
      simp [Dependency.readable_toJson]
    simpa [Target.toJson, Json.tagged, Json.readable, Json.readableMembers] using hds

@[simp] theorem isSpelled_valuesToJson (values : List Literal) :
    (valuesToJson values).IsSpelled := by
  simp [valuesToJson]

theorem list?_valuesToJson (values : List Literal) :
    (valuesToJson values).list? Literal.ofJson? = some values :=
  mapM_map_eq_some_iff.2 fun l _ => l.ofJson?_toJson

theorem readable_valuesToJson (depth : Nat) (values : List Literal) :
    (valuesToJson values).readable (depth + 2) = true := by
  refine Json.readable_array_iff.2 ?_
  simp [Literal.readable_toJson]

namespace Query

@[simp] theorem isSpelled_toJson (q : Query) : q.toJson.IsSpelled := by
  cases q <;> simp [toJson]

theorem ofJson?_toJson (q : Query) : ofJson? q.toJson = some q := by
  cases q with
  | add table values =>
    show (do return add table (← (valuesToJson values).list? Literal.ofJson?)) = _
    rw [list?_valuesToJson]
    rfl
  | remove table target =>
    show (do return remove table (← Target.ofJson? target.toJson)) = _
    rw [Target.ofJson?_toJson]
    rfl
  | get table target =>
    show (do return get table (← Target.ofJson? target.toJson)) = _
    rw [Target.ofJson?_toJson]
    rfl
  | set table target values =>
    show (do
      return set table (← Target.ofJson? target.toJson)
        (← (valuesToJson values).list? Literal.ofJson?)) = _
    rw [Target.ofJson?_toJson, list?_valuesToJson]
    rfl
  | drop table => rfl

theorem readable_toJson (depth : Nat) (q : Query) : q.toJson.readable (depth + 6) = true := by
  cases q <;>
    simp [toJson, Json.tagged, Json.readable, Json.readableMembers, Target.readable_toJson,
      readable_valuesToJson]

end Query

/-! ## Errors -/

theorem StorageType.ofJson?_title (lax : Bool) (t : StorageType) :
    StorageType.ofJson? lax (.string t.title) = some t := by
  cases t <;> rfl

/-- The count in an error fits 64 bits. -/
def ParseError.CountsFit : ParseError → Prop
  | .unterminatedQuote position => position < UInt64.size
  | _ => True

/-- The counts in an error fit 64 bits. -/
def QueryError.CountsFit : QueryError → Prop
  | .parse error => error.CountsFit
  | .valueCountMismatch expected found => expected < UInt64.size ∧ found < UInt64.size
  | .corruptTable _ offset _ => offset < UInt64.size
  | _ => True

@[simp] theorem ParseError.isSpelled_toJson (e : ParseError) : e.toJson.IsSpelled := by
  cases e <;> simp [toJson, fieldsToJson]

theorem ParseError.ofJson?_toJson (lax : Bool) {e : ParseError} (h : e.CountsFit) :
    ParseError.ofJson? lax e.toJson = some e := by
  cases e with
  | unterminatedQuote position =>
    show (Json.count? (.int position)).map unterminatedQuote = _
    rw [Json.count?_int h]
    rfl
  | _ => rfl

@[simp] theorem QueryError.isSpelled_toJson (e : QueryError) : e.toJson.IsSpelled := by
  cases e <;> simp [toJson, contentToJson]

/-- Every error is read back from its tree. -/
theorem QueryError.ofJson?_toJson (lax : Bool) {e : QueryError} (h : e.CountsFit) :
    QueryError.ofJson? lax e.toJson = some e := by
  cases e with
  | parse error =>
    show (ParseError.ofJson? lax error.toJson).map parse = _
    rw [ParseError.ofJson?_toJson lax h]
    rfl
  | typeMismatch column value expected =>
    show (do
      return typeMismatch column value (← StorageType.ofJson? lax (.string expected.title))) = _
    rw [StorageType.ofJson?_title]
    rfl
  | valueCountMismatch expected found =>
    show (do
      return valueCountMismatch (← Json.count? (.int expected)) (← Json.count? (.int found))) = _
    rw [Json.count?_int h.1, Json.count?_int h.2]
    rfl
  | corruptTable path offset reason =>
    show (do return corruptTable path (← Json.count? (.int offset)) reason) = _
    rw [Json.count?_int h]
    rfl
  | _ => rfl

/-! ## Entries -/

@[simp] theorem Value.isSpelled_toJson (v : Value) : v.toJson.IsSpelled := by
  cases v <;> simp [Value.toJson]

/-- Integers and strings are read back, and decimals that are read from their digits. -/
theorem Value.ofJson?_toJson_iff {v : Value} :
    Value.ofJson? v.toJson = some v ↔ ∀ x ∈ v.asDec?, Json.KeepsFloat x := by
  cases v with
  | int n =>
    show (do return Value.int (← Json.int64? (.int n.toInt))) = _ ↔ _
    rw [Json.int64?_int]
    exact ⟨fun _ => nofun, fun _ => rfl⟩
  | dec x =>
    show (do return Value.dec (← Json.float? (.float x))) = _ ↔ _
    rw [show (∀ y ∈ (Value.dec x).asDec?, Json.KeepsFloat y) ↔ Json.KeepsFloat x by
      simp [Value.asDec?], ← Json.float?_float_iff]
    cases Json.float? (.float x) <;> simp
  | str s => exact ⟨fun _ => nofun, fun _ => rfl⟩

@[simp] theorem isSpelled_cellToJson (cell : String × Value) : (cellToJson cell).IsSpelled := by
  simp [cellToJson]

theorem pairOf?_cellToJson_iff {cell : String × Value} :
    Json.pairOf? Json.text? Value.ofJson? (cellToJson cell) = some cell ↔
      ∀ x ∈ cell.2.asDec?, Json.KeepsFloat x := by
  obtain ⟨column, v⟩ := cell
  rw [← Value.ofJson?_toJson_iff]
  show (do return (column, ← Value.ofJson? v.toJson)) = _ ↔ _
  cases Value.ofJson? v.toJson <;> simp

namespace Entry

/-- The decimals in an entry. -/
def decimals (e : Entry) : List Float := e.data.filterMap (·.2.asDec?)

@[simp] theorem isSpelled_toJson (e : Entry) : e.toJson.IsSpelled := by
  obtain ⟨id, data, time⟩ := e
  have hdata : (Json.array (data.map cellToJson)).IsSpelled := by
    refine .array _ fun json hjson => ?_
    obtain ⟨cell, -, rfl⟩ := List.mem_map.1 hjson
    exact isSpelled_cellToJson cell
  cases time <;> simpa [toJson, timeToJson] using hdata

/-- Reading the tree of an entry is reading its cells. -/
theorem ofJson?_toJson_eq (e : Entry) :
    ofJson? e.toJson =
      ((e.data.map cellToJson).mapM (Json.pairOf? Json.text? Value.ofJson?)).map
        fun data => { e with data } := by
  obtain ⟨id, data, time⟩ := e
  cases time with
  | none =>
    show (do
      return Entry.mk id (← (data.map cellToJson).mapM (Json.pairOf? Json.text? Value.ofJson?))
        none) = _
    cases (data.map cellToJson).mapM (Json.pairOf? Json.text? Value.ofJson?) <;> rfl
  | some time =>
    show (do
      let data ← (data.map cellToJson).mapM (Json.pairOf? Json.text? Value.ofJson?)
      return Entry.mk id data (← (Json.word? (.int time.toNat)).map some)) = _
    rw [Json.word?_int]
    cases (data.map cellToJson).mapM (Json.pairOf? Json.text? Value.ofJson?) <;> rfl

/-- An entry is read back exactly if its decimals are. -/
theorem ofJson?_toJson_iff {e : Entry} :
    ofJson? e.toJson = some e ↔ ∀ x ∈ e.decimals, Json.KeepsFloat x := by
  have hcells : (e.data.map cellToJson).mapM (Json.pairOf? Json.text? Value.ofJson?) =
      some e.data ↔ ∀ x ∈ e.decimals, Json.KeepsFloat x := by
    rw [mapM_map_eq_some_iff]
    simp only [pairOf?_cellToJson_iff, decimals, List.mem_filterMap]
    constructor
    · rintro h x ⟨cell, hcell, hx⟩
      exact h cell hcell x hx
    · intro h cell hcell x hx
      exact h x ⟨cell, hcell, hx⟩
  rw [← hcells, ofJson?_toJson_eq]
  cases (e.data.map cellToJson).mapM (Json.pairOf? Json.text? Value.ofJson?) with
  | none => simp
  | some data =>
    rw [Option.map_some, Option.some_inj, Option.some_inj]
    exact ⟨congrArg Entry.data, fun h => by rw [h]⟩

/-- An entry with a decimal that is not finite is not read at all. -/
theorem ofJson?_toJson_eq_none {e : Entry} {x : Float} (hx : x ∈ e.decimals)
    (hfinite : x.isFinite = false) : ofJson? e.toJson = none := by
  obtain ⟨⟨column, v⟩, hcell, hv⟩ := List.mem_filterMap.1 hx
  have hnone : Json.pairOf? Json.text? Value.ofJson? (cellToJson (column, v)) = none := by
    cases v with
    | dec y =>
      cases hv
      show (do return (column, ← (do return Value.dec (← Json.float? (.float x))))) = none
      rw [Json.float, hfinite]
      rfl
    | _ => cases hv
  rw [ofJson?_toJson_eq, mapM_map_eq_none hcell hnone, Option.map_none]

end Entry

end RecordStore

import RecordStore.Text.Blank
import RecordStore.Token

/-!
# Names of tables and columns

A name must be one word of the query language and must stand unquoted in the header of a table
file. `Name.check` accepts a name or gives the first reason against it, a `NameFault`.
-/

namespace RecordStore

/-- Why a name is refused. -/
inductive NameFault where
  | empty
  | reserved (name : String)
  | keyword (name : String)
  deriving DecidableEq, Repr

/-- The fault in words. -/
def NameFault.message : NameFault → String
  | empty => "names must not be empty"
  | reserved name => "name " ++ Text.quote name ++ " contains whitespace or a reserved character"
  | keyword name => "name " ++ Text.quote name ++ " is a query keyword"

namespace Name

/-- The characters with a meaning in queries or table files. -/
def reserved : List Char := [',', ':', ';', '[', ']', '{', '}', '\'', '"', '\\']

/-- Whether a character may be part of a name. -/
def allowed (c : Char) : Bool := !Text.isBlank c && !reserved.contains c

/-- Accepts a name or says what is wrong with it. -/
def check (name : String) : Except NameFault Unit :=
  if name.toList.isEmpty then .error .empty
  else if !name.toList.all allowed then .error (.reserved name)
  else if (Keyword.ofWord? name).isSome then .error (.keyword name)
  else .ok ()

/-- A name is accepted exactly if it is a non-empty text of allowed characters and no keyword. -/
theorem check_eq_ok_iff (name : String) :
    check name = .ok () ↔
      name.toList ≠ [] ∧ (∀ c ∈ name.toList, allowed c = true) ∧ Keyword.ofWord? name = none := by
  unfold check
  by_cases hempty : name.toList = []
  · simp [hempty]
  by_cases hall : ∀ c ∈ name.toList, allowed c = true
  · have hyes : name.toList.all allowed = true := List.all_eq_true.2 hall
    cases hk : Keyword.ofWord? name with
    | none => simpa [hempty, hyes, hk] using hall
    | some k => simp [hempty, hyes]
  · have hnot : name.toList.all allowed = false := by
      simpa [List.all_eq_true] using hall
    simp [hempty, hnot, hall]

end Name

end RecordStore

import Mathlib
import RecordStore.Proofs.Text.Positions

/-!
# The order of texts

Texts are compared by their characters and file names by their bytes. It is the same order, since
UTF-8 keeps it: of two characters the smaller one has the smaller byte where they first differ.

- `utf8EncodeChar_append_lt`: two characters with any bytes behind them;
- `bytes_lt_bytes`, `lt_iff_bytes_lt`, `le_iff_bytes_le`: two texts.
-/

namespace RecordStore.Text

/-! ## Characters -/

theorem cons_lt_cons_of_lt {m n : Nat} (h : m < n) (hn : n < 256) (as bs : List UInt8) :
    UInt8.ofNat m :: as < UInt8.ofNat n :: bs := by
  refine List.cons_lt_cons_iff.2 (.inl ?_)
  rw [UInt8.lt_iff_toNat_lt, UInt8.toNat_ofNat', UInt8.toNat_ofNat']
  omega

theorem cons_lt_cons_of_eq {m n : Nat} (h : m = n) {as bs : List UInt8} (hlt : as < bs) :
    UInt8.ofNat m :: as < UInt8.ofNat n :: bs :=
  List.cons_lt_cons_iff.2 (.inr ⟨congrArg UInt8.ofNat h, hlt⟩)

/-- The bytes of a smaller character come first, whatever stands behind them. -/
theorem utf8EncodeChar_append_lt {c d : Char} (h : c < d) (cs ds : List UInt8) :
    String.utf8EncodeChar c ++ cs < String.utf8EncodeChar d ++ ds := by
  have hlt : c.val.toNat < d.val.toNat := h
  have hd : d.val.toNat < 0x110000 := by
    have hvalid := d.valid
    simp only [UInt32.isValidChar, Nat.isValidChar] at hvalid
    omega
  simp only [String.utf8EncodeChar]
  generalize c.val.toNat = v at hlt ⊢
  generalize d.val.toNat = w at hlt hd ⊢
  -- characters of different lengths differ in the first byte, others in the first digit that does
  split_ifs
  all_goals simp only [List.cons_append, List.nil_append]
  all_goals try first
    | exact cons_lt_cons_of_lt (by omega) (by omega) _ _
    | omega
  · by_cases h₁ : v / 64 < w / 64
    · exact cons_lt_cons_of_lt (by omega) (by omega) _ _
    · refine cons_lt_cons_of_eq (by omega) ?_
      exact cons_lt_cons_of_lt (by omega) (by omega) _ _
  · by_cases h₁ : v / 4096 < w / 4096
    · exact cons_lt_cons_of_lt (by omega) (by omega) _ _
    · refine cons_lt_cons_of_eq (by omega) ?_
      by_cases h₂ : v / 64 < w / 64
      · exact cons_lt_cons_of_lt (by omega) (by omega) _ _
      · refine cons_lt_cons_of_eq (by omega) ?_
        exact cons_lt_cons_of_lt (by omega) (by omega) _ _
  · by_cases h₁ : v / 262144 < w / 262144
    · exact cons_lt_cons_of_lt (by omega) (by omega) _ _
    · refine cons_lt_cons_of_eq (by omega) ?_
      by_cases h₂ : v / 4096 < w / 4096
      · exact cons_lt_cons_of_lt (by omega) (by omega) _ _
      · refine cons_lt_cons_of_eq (by omega) ?_
        by_cases h₃ : v / 64 < w / 64
        · exact cons_lt_cons_of_lt (by omega) (by omega) _ _
        · refine cons_lt_cons_of_eq (by omega) ?_
          exact cons_lt_cons_of_lt (by omega) (by omega) _ _

/-! ## Texts -/

/-- The bytes of a smaller text come first. -/
theorem bytes_lt_bytes {cs ds : List Char} (h : cs < ds) : bytes cs < bytes ds := by
  induction cs generalizing ds with
  | nil =>
    cases ds with
    | nil => exact absurd h (List.lt_irrefl [])
    | cons d ds =>
      obtain ⟨first, more, hbytes, -⟩ := exists_utf8EncodeChar d
      simp [hbytes]
  | cons c cs ih =>
    cases ds with
    | nil => exact absurd h (List.not_lt_nil _)
    | cons d ds =>
      rcases List.cons_lt_cons_iff.1 h with hlt | ⟨rfl, hlt⟩
      · exact utf8EncodeChar_append_lt hlt _ _
      · exact List.append_left_lt (ih hlt)

/-- Texts are in the order of their bytes. -/
theorem lt_iff_bytes_lt {s t : String} : s < t ↔ bytes s.toList < bytes t.toList := by
  rw [String.lt_iff_toList_lt]
  constructor
  · exact bytes_lt_bytes
  · intro h
    rcases lt_trichotomy s.toList t.toList with hlt | heq | hgt
    · exact hlt
    · rw [heq] at h
      exact absurd h (List.lt_irrefl _)
    · exact absurd h (List.lt_asymm (bytes_lt_bytes hgt))

theorem le_iff_bytes_le {s t : String} : s ≤ t ↔ bytes s.toList ≤ bytes t.toList := by
  rw [← not_lt, lt_iff_bytes_lt, List.not_lt]

end RecordStore.Text

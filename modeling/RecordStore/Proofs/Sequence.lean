import Mathlib

/-!
# Operations that may fail, one after the other

Rows, headers and batches are read and checked part by part, and the first fault wins. Such an
operation on a list succeeds exactly if it succeeds on every part (`mapM_eq_ok_iff`), and otherwise
fails as it does on the first part on which it fails (`mapM_eq_error_iff`). What was written part by
part is read back if every part is (`mapM_map_eq_some_iff`).

An operation on a state has an `outcome` and leaves a state also when it fails (`stateAfter`);
whether it fails or succeeds can be computed (`failed`, `succeeds`). Of two in a row, the second
runs in the state that the first has left (`bind_run_eq_ok_iff`, `bind_run_eq_error_iff`).
-/

namespace RecordStore

variable {α β ε : Type}

/-- The state that an operation leaves, whether it succeeds or fails. -/
def stateAfter {σ : Type} : EStateM.Result ε σ α → σ
  | .ok _ s => s
  | .error _ s => s

/-- The result of an operation, without the state that it leaves. -/
def outcome {σ : Type} : EStateM.Result ε σ α → Except ε α
  | .ok a _ => .ok a
  | .error e _ => .error e

theorem outcome_eq_ok_iff {σ : Type} {r : EStateM.Result ε σ α} {a : α} :
    outcome r = .ok a ↔ ∃ s, r = .ok a s := by
  cases r <;> simp [outcome]

/-- Whether an operation fails. -/
def failed {σ : Type} : EStateM.Result ε σ α → Bool
  | .ok _ _ => false
  | .error _ _ => true

/-- Whether an operation succeeds with a result and a state that pass a test. -/
def succeeds {σ : Type} (test : α → σ → Bool) : EStateM.Result ε σ α → Bool
  | .ok a s => test a s
  | .error _ _ => false

theorem exists_of_failed {σ : Type} {r : EStateM.Result ε σ α} {P : ε → σ → Prop}
    (h : failed r = true) (himp : ∀ e s, r = .error e s → P e s) :
    ∃ e s, r = .error e s ∧ P e s := by
  cases r with
  | ok a s => cases h
  | error e s => exact ⟨e, s, rfl, himp e s rfl⟩

theorem exists_of_succeeds {σ : Type} {r : EStateM.Result ε σ α} {p : α → σ → Bool}
    {P : α → σ → Prop} (h : succeeds p r = true)
    (himp : ∀ a s, r = .ok a s → p a s = true → P a s) : ∃ a s, r = .ok a s ∧ P a s := by
  cases r with
  | ok a s => exact ⟨a, s, rfl, himp a s rfl h⟩
  | error e s => cases h

/-- An operation succeeds after another one if that one succeeds. -/
theorem bind_run_eq_ok_iff {σ : Type} {x : EStateM ε σ α} {f : α → EStateM ε σ β} {s u : σ}
    {b : β} : (x >>= f) s = .ok b u ↔ ∃ a t, x s = .ok a t ∧ f a t = .ok b u := by
  simp only [bind, EStateM.bind]
  cases x s <;> simp

/-- The first fault of two operations ends them. -/
theorem bind_run_eq_error_iff {σ : Type} {x : EStateM ε σ α} {f : α → EStateM ε σ β} {s u : σ}
    {e : ε} :
    (x >>= f) s = .error e u ↔ x s = .error e u ∨ ∃ a t, x s = .ok a t ∧ f a t = .error e u := by
  simp only [bind, EStateM.bind]
  cases x s <;> simp

theorem bind_eq_ok_iff {x : Except ε α} {f : α → Except ε β} {b : β} :
    x >>= f = .ok b ↔ ∃ a, x = .ok a ∧ f a = .ok b := by
  cases x with
  | error e => simp [bind, Except.bind]
  | ok a => simp [bind, Except.bind]

theorem map_eq_ok_iff {f : α → β} {x : Except ε α} {b : β} :
    x.map f = .ok b ↔ ∃ a, x = .ok a ∧ f a = b := by
  cases x <;> simp [Except.map]

theorem mapError_eq_ok_iff {ε' : Type} {f : ε → ε'} {x : Except ε α} {a : α} :
    x.mapError f = .ok a ↔ x = .ok a := by
  cases x <;> simp [Except.mapError]

theorem mapM_cons_eq_ok_iff {f : α → Except ε β} {a : α} {as : List α} {bs : List β} :
    (a :: as).mapM f = .ok bs ↔
      ∃ b tail, bs = b :: tail ∧ f a = .ok b ∧ as.mapM f = .ok tail := by
  simp only [List.mapM_cons, bind_eq_ok_iff]
  constructor
  · rintro ⟨b, hb, tail, htail, h⟩
    exact ⟨b, tail, (Except.ok.inj h).symm, hb, htail⟩
  · rintro ⟨b, tail, rfl, hb, htail⟩
    exact ⟨b, hb, tail, htail, rfl⟩

theorem exists_of_mem_of_forall₂ {R : α → β → Prop} {as : List α} {bs : List β}
    (h : List.Forall₂ R as bs) {a : α} (ha : a ∈ as) : ∃ b ∈ bs, R a b := by
  induction h with
  | nil => cases ha
  | cons hab _ ih =>
    rcases List.mem_cons.1 ha with rfl | ha
    · exact ⟨_, List.mem_cons_self, hab⟩
    · obtain ⟨b, hb, hR⟩ := ih ha
      exact ⟨b, List.mem_cons_of_mem _ hb, hR⟩

/-- An operation on a list succeeds if it succeeds on every part. -/
theorem mapM_eq_ok_iff {f : α → Except ε β} {as : List α} {bs : List β} :
    as.mapM f = .ok bs ↔ List.Forall₂ (fun a b => f a = .ok b) as bs := by
  induction as generalizing bs with
  | nil =>
    rw [List.forall₂_nil_left_iff, List.mapM_nil]
    exact ⟨fun h => (Except.ok.inj h).symm, fun h => h ▸ rfl⟩
  | cons a as ih =>
    rw [mapM_cons_eq_ok_iff, List.forall₂_cons_left_iff]
    constructor
    · rintro ⟨b, tail, rfl, hb, htail⟩
      exact ⟨b, tail, hb, ih.1 htail, rfl⟩
    · rintro ⟨b, tail, hb, htail, rfl⟩
      exact ⟨b, tail, rfl, hb, ih.2 htail⟩

/-- It fails as it does on the first part on which it fails. -/
theorem mapM_eq_error_iff {f : α → Except ε β} {as : List α} {e : ε} :
    as.mapM f = .error e ↔
      ∃ before a after, as = before ++ a :: after ∧ (∀ a' ∈ before, ∃ b, f a' = .ok b) ∧
        f a = .error e := by
  induction as with
  | nil => simp [List.mapM_nil, pure, Except.pure]
  | cons a as ih =>
    rw [List.mapM_cons]
    cases ha : f a with
    | error e' =>
      show Except.error e' = .error e ↔ _
      constructor
      · rintro ⟨⟩
        exact ⟨[], a, as, rfl, List.forall_mem_nil _, ha⟩
      · rintro ⟨before, a', after, heq, hbefore, ha'⟩
        cases before with
        | nil =>
          cases heq
          rw [ha] at ha'
          cases ha'
          rfl
        | cons b before =>
          cases heq
          obtain ⟨b, hb⟩ := hbefore a List.mem_cons_self
          rw [ha] at hb
          cases hb
    | ok b =>
      show (as.mapM f >>= fun bs => pure (b :: bs)) = .error e ↔ _
      have hbind : (as.mapM f >>= fun bs => pure (b :: bs)) = .error e ↔ as.mapM f = .error e := by
        cases as.mapM f with
        | error e' => exact Iff.rfl
        | ok bs => simp [bind, Except.bind, pure, Except.pure]
      rw [hbind, ih]
      constructor
      · rintro ⟨before, a', after, rfl, hbefore, ha'⟩
        exact ⟨a :: before, a', after, rfl, List.forall_mem_cons.2 ⟨⟨b, ha⟩, hbefore⟩, ha'⟩
      · rintro ⟨before, a', after, heq, hbefore, ha'⟩
        cases before with
        | nil =>
          cases heq
          rw [ha] at ha'
          cases ha'
        | cons b' before =>
          cases heq
          exact ⟨before, a', after, rfl, (List.forall_mem_cons.1 hbefore).2, ha'⟩

theorem exists_of_mem_of_mapM {f : α → Except ε β} {as : List α} {bs : List β} {a : α}
    (h : as.mapM f = .ok bs) (ha : a ∈ as) : ∃ b ∈ bs, f a = .ok b := by
  induction as generalizing bs with
  | nil => cases ha
  | cons a' as ih =>
    obtain ⟨b, tail, rfl, hb, htail⟩ := mapM_cons_eq_ok_iff.1 h
    rcases List.mem_cons.1 ha with rfl | ha
    · exact ⟨b, List.mem_cons_self, hb⟩
    · obtain ⟨b', hmem, hb'⟩ := ih htail ha
      exact ⟨b', List.mem_cons_of_mem _ hmem, hb'⟩

/-- What was written part by part is read back exactly if every part is. -/
theorem mapM_map_eq_some_iff {encode : α → β} {decode : β → Option α} {as : List α} :
    (as.map encode).mapM decode = some as ↔ ∀ a ∈ as, decode (encode a) = some a := by
  induction as with
  | nil => simp
  | cons a as ih =>
    rw [List.map_cons, List.mapM_cons, List.forall_mem_cons, ← ih]
    cases decode (encode a) with
    | none => simp
    | some b =>
      cases (as.map encode).mapM decode with
      | none => simp
      | some bs => simp

/-- A part that is not read leaves nothing to be read. -/
theorem mapM_map_eq_none {γ : Type} {encode : α → β} {decode : β → Option γ} {as : List α}
    {a : α} (ha : a ∈ as) (h : decode (encode a) = none) : (as.map encode).mapM decode = none := by
  induction as with
  | nil => cases ha
  | cons a' as ih =>
    rw [List.map_cons, List.mapM_cons]
    rcases List.mem_cons.1 ha with rfl | ha
    · rw [h]
      rfl
    · rw [ih ha]
      cases decode (encode a') <;> rfl

end RecordStore

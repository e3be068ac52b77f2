import Mathlib
import RecordStore.Numeral.Decimal

/-!
# Rounding to the nearest decimal

Writing a decimal picks a number from the interval of the numbers that round to it; reading rounds
that number again. Both are said of fractions, numerator over denominator.

- `Within`: a number lies between two others, at the ends only if they belong to the interval;
- `Span.Covers`: a fraction lies in the interval of a float (`Span.contains_iff`), however it is
  written (`Span.Covers.congr`);
- `roundHalfEven_eq`: the whole number that a fraction is rounded to;
- `nearestBits_eq`: a fraction in the interval of a float is rounded to that float.
-/

namespace RecordStore.Numeral

/-- A number lies between two others, at one of them only if the ends belong to the interval. -/
def Within (ends : Prop) (low x high : Nat) : Prop :=
  low ≤ x ∧ x ≤ high ∧ (ends ∨ low < x ∧ x < high)

theorem within_mul_right_iff {ends : Prop} {low x high k : Nat} (hk : 0 < k) :
    Within ends (low * k) (x * k) (high * k) ↔ Within ends low x high := by
  simp only [Within, Nat.mul_le_mul_right_iff hk, Nat.mul_lt_mul_right hk]

/-! ## Rounding to a whole number -/

/-- A fraction at most half a step away from a whole number is rounded to it, at exactly half a step
only if it is even. Half a step is added to all sides, so that nothing is negative. -/
theorem roundHalfEven_eq {n d q : Nat} (hd : 0 < d)
    (h : Within (q % 2 = 0) (2 * (q * d)) (2 * n + d) (2 * (q * d) + 2 * d)) :
    roundHalfEven n d = q := by
  obtain ⟨hlow, hhigh, htie⟩ := h
  have hn := Nat.div_add_mod n d
  have hr := Nat.mod_lt n hd
  rw [Nat.mul_comm] at hn
  have h₁ : n / d ≤ q := by
    by_contra hc
    rw [Nat.not_le] at hc
    have : (q + 1) * d ≤ n / d * d := Nat.mul_le_mul_right d hc
    rw [Nat.add_mul] at this
    omega
  have h₂ : q ≤ n / d + 1 := by
    by_contra hc
    rw [Nat.not_le] at hc
    have : (n / d + 2) * d ≤ q * d := Nat.mul_le_mul_right d hc
    rw [Nat.add_mul] at this
    omega
  unfold roundHalfEven
  -- the fraction is rounded down to its whole part, or up to the next number
  obtain hq | hq : q = n / d ∨ q = n / d + 1 := by omega
  · rw [hq] at hlow hhigh htie ⊢
    refine if_pos ?_
    simp only [Bool.or_eq_true, decide_eq_true_eq, Bool.and_eq_true, beq_iff_eq]
    omega
  · rw [hq, Nat.add_mul] at hlow hhigh htie
    rw [hq]
    refine if_neg ?_
    simp only [Bool.or_eq_true, decide_eq_true_eq, Bool.and_eq_true, beq_iff_eq]
    omega

/-- The step of a fraction is the one that leaves 53 bits of its whole part, if it has so many. -/
theorem log2_div_sub_eq {n d k : Nat} (hd : 0 < d) (hlow : k = 0 ∨ leadingBit * (d * 2 ^ k) ≤ n)
    (hhigh : n < 2 * leadingBit * (d * 2 ^ k)) : (n / d).log2 - 52 = k := by
  have hpow : ∀ b, 2 ^ b * (d * 2 ^ k) = 2 ^ (b + k) * d := fun b => by ring
  rw [show leadingBit = 2 ^ 52 from rfl, hpow] at hlow
  rw [show 2 * leadingBit = 2 ^ 53 from rfl, hpow] at hhigh
  have hlt : n / d < 2 ^ (53 + k) := (Nat.div_lt_iff_lt_mul hd).2 hhigh
  by_cases hzero : n / d = 0
  · rcases hlow with rfl | hlow
    · rw [hzero]
      rfl
    · have := (Nat.le_div_iff_mul_le hd).2 hlow
      have := Nat.two_pow_pos (52 + k)
      omega
  · have hle : (n / d).log2 < 53 + k := (Nat.log2_lt hzero).2 hlt
    rcases hlow with rfl | hlow
    · omega
    · have : 52 + k ≤ (n / d).log2 :=
        (Nat.le_log2 hzero).2 ((Nat.le_div_iff_mul_le hd).2 hlow)
      omega

/-! ## The interval of a float -/

/-- Whether a fraction lies in the interval. -/
def Span.Covers (s : Span) (num den : Nat) : Prop :=
  Within (s.closed = true) (s.low * den) (num * s.unit) (s.high * den)

theorem Span.contains_iff (s : Span) (n : Nat) (exponent : Int) :
    s.contains n exponent = true ↔
      s.Covers (n * 10 ^ exponent.toNat) (10 ^ (-exponent).toNat) := by
  have hcomm : n * s.unit * 10 ^ exponent.toNat = n * 10 ^ exponent.toNat * s.unit := by ring
  simp only [Span.contains, Span.Covers, Within, Nat.pow_eq, hcomm]
  cases s.closed with
  | true => simp
  | false =>
    simp only [Bool.false_eq_true, if_false, Bool.and_eq_true, decide_eq_true_eq, false_or]
    exact ⟨fun ⟨h₁, h₂⟩ => ⟨h₁.le, h₂.le, h₁, h₂⟩, fun ⟨_, _, h⟩ => h⟩

/-- The interval holds a fraction however it is written. -/
theorem Span.Covers.congr {s : Span} {num den num' den' : Nat} (h : s.Covers num den)
    (hden : 0 < den) (hden' : 0 < den') (heq : num' * den = num * den') : s.Covers num' den' := by
  have hnum : num' * s.unit * den = num * s.unit * den' := by
    rw [Nat.mul_right_comm, heq, Nat.mul_right_comm]
  unfold Span.Covers at h ⊢
  rw [← within_mul_right_iff hden'] at h
  rw [← within_mul_right_iff hden, hnum, Nat.mul_right_comm, Nat.mul_right_comm s.high]
  exact h

/-- The interval of the positive float with these bits. -/
def spanOf (bits : Nat) : Span := span (bits / leadingBit % 2048) (bits % leadingBit)

/-- The scale and the unit of an interval only shift the binary point. -/
theorem scale_mul_eq_unit_mul (places power : Nat) :
    (if places + 3 ≤ power + 1 then 2 ^ (power + 1 - (places + 3)) else 1) *
        (4 * Nat.pow 2 places) =
      (if places + 3 ≤ power + 1 then 1 else 2 ^ (places + 3 - (power + 1))) * 2 ^ power := by
  rw [Nat.pow_eq, show 4 = 2 ^ 2 from rfl, ← Nat.pow_add]
  split <;>
  · rw [← Nat.pow_add, Nat.one_mul]
    congr 1
    omega

/-- The interval in quarters of the distance between neighbours, which is `2 ^ power` times the
smallest positive float. -/
theorem within_of_covers {exponentField fraction num den significand power below : Nat}
    (hsig : (if exponentField = 0 then fraction else fraction + leadingBit) = significand)
    (hbelow : (if fraction = 0 && 1 < exponentField then 1 else 2) = below)
    (hpower : max exponentField 1 = power + 1)
    (h : (span exponentField fraction).Covers num den) :
    Within (significand % 2 = 0) ((4 * significand - below) * (den * 2 ^ power))
      (4 * (num * Nat.pow 2 1074)) ((4 * significand + 2) * (den * 2 ^ power)) := by
  have hpoint := scale_mul_eq_unit_mul 1074 power
  have hunit : 0 < (if 1077 ≤ power + 1 then 1 else 2 ^ (1077 - (power + 1))) := by
    split <;> positivity
  have hpos : ∀ k, 0 < 4 * Nat.pow 2 k := fun k => Nat.mul_pos (by decide) (Nat.two_pow_pos k)
  have hpos := hpos 1074
  simp only [span, Span.Covers, hsig, hbelow, hpower, beq_iff_eq] at h
  simp only [Nat.reduceAdd] at hpoint
  -- the powers become plain numbers before anything tries to compute them
  generalize 1074 = places at hpoint hpos ⊢
  generalize (if 1077 ≤ power + 1 then 2 ^ (power + 1 - 1077) else 1) = scale at *
  generalize (if 1077 ≤ power + 1 then 1 else 2 ^ (1077 - (power + 1))) = unit at *
  generalize Nat.pow 2 places = smallest at *
  have hends : ∀ a, a * (den * 2 ^ power) * unit = a * scale * den * (4 * smallest) := fun a => by
    calc a * (den * 2 ^ power) * unit = a * den * (unit * 2 ^ power) := by ring
      _ = a * scale * den * (4 * smallest) := by rw [← hpoint]; ring
  have hmiddle : 4 * (num * smallest) * unit = num * unit * (4 * smallest) := by ring
  rw [← within_mul_right_iff hunit, hends, hends, hmiddle, within_mul_right_iff hpos]
  exact h

/-! ## The float nearest to a fraction -/

/-- Just below a power of two the distance between neighbours is half of what it is above it. -/
theorem within_below_power {top n d : Nat} (htop : 0 < top)
    (hlow : (4 * top - 1) * (2 * d) ≤ 4 * n) (hlt : n < top * (2 * d)) :
    top * d ≤ n ∧ n < 2 * top * d ∧
      Within (2 * top % 2 = 0) (2 * (2 * top * d)) (2 * n + d) (2 * (2 * top * d) + 2 * d) := by
  have hle : d ≤ top * d := Nat.le_mul_of_pos_left d htop
  rw [Nat.sub_mul, show 4 * top * (2 * d) = 8 * (top * d) by ring] at hlow
  rw [show top * (2 * d) = 2 * (top * d) by ring] at hlt
  rw [show 2 * top * d = 2 * (top * d) by ring]
  generalize top * d = x at *
  exact ⟨by omega, by omega, by omega, by omega, .inl (Nat.mul_mod_right 2 top)⟩

/-- Elsewhere the lower end is half a distance away, or the fraction is not below the float. -/
theorem within_above_power {significand below n d : Nat}
    (hbelow : below = 2 ∨ below = 1 ∧ significand * d ≤ n)
    (h : Within (significand % 2 = 0) ((4 * significand - below) * d) (4 * n)
      ((4 * significand + 2) * d)) :
    Within (significand % 2 = 0) (2 * (significand * d)) (2 * n + d)
      (2 * (significand * d) + 2 * d) := by
  have hmul : ∀ a, a * significand * d = a * (significand * d) := fun a => Nat.mul_assoc ..
  rw [Nat.sub_mul, Nat.add_mul, hmul] at h
  generalize significand * d = x at *
  obtain ⟨h₁, h₂, h₃⟩ := h
  rcases hbelow with rfl | ⟨rfl, hx⟩ <;>
  exact ⟨by omega, by omega, h₃.imp id fun hends => ⟨by omega, by omega⟩⟩

/-- Where a fraction that is rounded to a significand lies among the powers of two. -/
theorem bounds_above_power {top significand n d : Nat} (hd : 0 < d)
    (hsig : significand < 2 * top)
    (h : Within (significand % 2 = 0) (2 * (significand * d)) (2 * n + d)
      (2 * (significand * d) + 2 * d)) :
    n < 2 * top * d ∧ (top < significand → top * d ≤ n) := by
  have hmul : ∀ a b, a < b → a * d + d ≤ b * d := fun a b hab => by
    rw [← Nat.succ_mul]
    exact Nat.mul_le_mul_right d hab
  have hhigh := hmul _ _ hsig
  obtain ⟨h₁, h₂, -⟩ := h
  constructor
  · omega
  · intro htop
    have hlow := hmul _ _ htop
    omega

/-- A fraction that lies between two powers of two and is rounded to a significand. -/
theorem nearestBits_of_within {num den n power significand : Nat} (hden : 0 < den)
    (hn : num * Nat.pow 2 1074 = n) (hstep : power = 0 ∨ leadingBit * (den * 2 ^ power) ≤ n)
    (hhigh : n < 2 * leadingBit * (den * 2 ^ power))
    (hround : Within (significand % 2 = 0) (2 * (significand * (den * 2 ^ power)))
      (2 * n + den * 2 ^ power) (2 * (significand * (den * 2 ^ power)) + 2 * (den * 2 ^ power))) :
    nearestBits num den = min infinityBits (power * leadingBit + significand) := by
  have hpos : 0 < den * 2 ^ power := by positivity
  unfold nearestBits
  rw [hn]
  simp only [Nat.pow_eq]
  rw [log2_div_sub_eq hden hstep hhigh, roundHalfEven_eq hpos hround]

/-- A fraction just below a power of two is rounded with the smaller step, and carries. -/
theorem nearestBits_below_power {num den n power : Nat} (hden : 0 < den)
    (hn : num * Nat.pow 2 1074 = n)
    (hlow : (4 * leadingBit - 1) * (den * 2 ^ (power + 1)) ≤ 4 * n)
    (hlt : n < leadingBit * (den * 2 ^ (power + 1))) :
    nearestBits num den = min infinityBits (power * leadingBit + 2 * leadingBit) := by
  have hdouble : den * 2 ^ (power + 1) = 2 * (den * 2 ^ power) := by ring
  rw [hdouble] at hlow hlt
  obtain ⟨hle, hhigh, hround⟩ := within_below_power (by decide) hlow hlt
  exact nearestBits_of_within hden hn (.inr hle) hhigh hround

/-- The bits of a float are the number of its place: one for each significand below it. -/
theorem place_eq {exponentField fraction power significand : Nat}
    (hpower : max exponentField 1 = power + 1)
    (hsig : (if exponentField = 0 then fraction else fraction + leadingBit) = significand) :
    power * leadingBit + significand = leadingBit * exponentField + fraction := by
  rw [← hsig]
  split
  · next h0 => rw [h0, show power = 0 by omega, Nat.zero_mul, Nat.mul_zero]
  · next h0 =>
    rw [show exponentField = power + 1 by omega]
    ring

/-- A fraction in an interval that is not below a power of two is rounded to the significand of the
interval. -/
theorem nearestBits_above_power {exponentField fraction num den n power significand below : Nat}
    (hden : 0 < den) (hn : num * Nat.pow 2 1074 = n) (hfraction : fraction < leadingBit)
    (hpower : max exponentField 1 = power + 1)
    (hsig : (if exponentField = 0 then fraction else fraction + leadingBit) = significand)
    (hbelow : (if fraction = 0 && 1 < exponentField then 1 else 2) = below)
    (hplace : fraction = 0 → 1 < exponentField → leadingBit * (den * 2 ^ power) ≤ n)
    (h : Within (significand % 2 = 0) ((4 * significand - below) * (den * 2 ^ power)) (4 * n)
      ((4 * significand + 2) * (den * 2 ^ power))) :
    nearestBits num den = min infinityBits (power * leadingBit + significand) := by
  have hpos : 0 < den * 2 ^ power := by positivity
  have hends : below = 2 ∨ below = 1 ∧ significand * (den * 2 ^ power) ≤ n := by
    rw [← hbelow]
    split
    · next hc =>
      simp only [Bool.and_eq_true, decide_eq_true_eq] at hc
      rw [if_neg (by omega), hc.1, Nat.zero_add] at hsig
      exact .inr ⟨rfl, hsig ▸ hplace hc.1 hc.2⟩
    · exact .inl rfl
  have hround := within_above_power hends h
  have hsignificand : significand < 2 * leadingBit := by
    split at hsig <;> omega
  obtain ⟨hhigh, hlow⟩ := bounds_above_power hpos hsignificand hround
  refine nearestBits_of_within hden hn ?_ hhigh hround
  -- small numbers have the smallest step, however few bits they have
  by_cases h0 : power = 0
  · exact .inl h0
  · rw [if_neg (by omega)] at hsig
    by_cases hf : fraction = 0
    · exact .inr (hplace hf (by omega))
    · exact .inr (hlow (by omega))

/-- The float nearest to a fraction is the one whose interval holds it. -/
theorem nearestBits_eq {num den bits : Nat} (hden : 0 < den) (hbits : bits < infinityBits)
    (h : (spanOf bits).Covers num den) : nearestBits num den = bits := by
  have hfields := Nat.div_add_mod bits leadingBit
  have hfraction : bits % leadingBit < leadingBit := Nat.mod_lt _ (by decide)
  have hexponent : bits / leadingBit % 2048 = bits / leadingBit := by
    simp only [infinityBits, leadingBit] at *
    omega
  rw [spanOf, hexponent] at h
  generalize bits / leadingBit = exponentField at *
  generalize bits % leadingBit = fraction at *
  obtain ⟨power, hpower⟩ : ∃ power, max exponentField 1 = power + 1 :=
    ⟨max exponentField 1 - 1, by omega⟩
  have hplace := @place_eq exponentField fraction power _ hpower rfl
  have hwithin := within_of_covers rfl rfl hpower h
  generalize hn : num * Nat.pow 2 1074 = n at *
  -- below a power of two the interval reaches down to where the step is half as long
  by_cases hcarry : fraction = 0 ∧ 1 < exponentField ∧ n < leadingBit * (den * 2 ^ power)
  · obtain ⟨rfl, hnormal, hlt⟩ := hcarry
    obtain ⟨half, rfl⟩ : ∃ half, power = half + 1 := ⟨power - 1, by omega⟩
    rw [if_neg (by omega), if_pos (by simpa using hnormal), Nat.zero_add] at hwithin
    have hsum : half * leadingBit + 2 * leadingBit = bits := by
      rw [← hfields, show exponentField = half + 2 by omega]
      ring
    rw [nearestBits_below_power hden hn hwithin.1 hlt, hsum, Nat.min_eq_right hbits.le]
  · have habove : fraction = 0 → 1 < exponentField → leadingBit * (den * 2 ^ power) ≤ n := by
      intro hzero hnormal
      exact Nat.le_of_not_lt fun hlt => hcarry ⟨hzero, hnormal, hlt⟩
    rw [nearestBits_above_power hden hn hfraction hpower rfl rfl habove hwithin, hplace, hfields,
      Nat.min_eq_right hbits.le]

end RecordStore.Numeral

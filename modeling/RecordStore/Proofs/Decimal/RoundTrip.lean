import RecordStore.Proofs.Decimal.Bits
import RecordStore.Proofs.Decimal.Rounding

/-!
# Every decimal is read back from its text

The digits of a decimal are picked from the interval of the numbers that round to it. Zeros dropped
at their end, and the point put among them, change the spelling and not the number, so reading
rounds back to the same decimal.

- `covers_shortest`: the digits lie in the interval of the decimal;
- `nearest_of_covers`: a number in the interval of a decimal is read as that decimal;
- `readDecimal?_writeDecimal`: every decimal is read back from its text, those that are no finite
  number included.
-/

namespace RecordStore.Numeral

/-! ## Shortest digits -/

/-- The numerator of a decimal number. -/
def Scientific.num (s : Scientific) : Nat := s.digits * 10 ^ s.exponent.toNat

/-- The denominator of a decimal number, a power of ten. -/
def Scientific.den (s : Scientific) : Nat := 10 ^ (-s.exponent).toNat

theorem Scientific.den_pos (s : Scientific) : 0 < s.den := Nat.pow_pos (by decide)

/-- Zeros at the end of the digits count as much as the exponent. -/
theorem Scientific.num_mul_den (n k : Nat) (e : Int) :
    (Scientific.mk (n * 10 ^ k) (e - k)).num * (Scientific.mk n e).den =
      (Scientific.mk n e).num * (Scientific.mk (n * 10 ^ k) (e - k)).den := by
  have hpow : ∀ a b, n * 10 ^ a * 10 ^ b = n * 10 ^ (a + b) := fun a b => by ring
  simp only [Scientific.num, Scientific.den, hpow]
  congr 2
  omega

/-- The interval holds a number also when zeros are added to its digits. -/
theorem Span.Covers.shift {s : Span} {n : Nat} {e : Int} (k : Nat)
    (h : s.Covers (Scientific.mk n e).num (Scientific.mk n e).den) :
    s.Covers (Scientific.mk (n * 10 ^ k) (e - k)).num (Scientific.mk (n * 10 ^ k) (e - k)).den :=
  h.congr (Scientific.den_pos _) (Scientific.den_pos _) (Scientific.num_mul_den n k e)

theorem covers_dropZeros {s : Span} (fuel : Nat) {n : Scientific} (h : s.Covers n.num n.den) :
    s.Covers (dropZeros fuel n).num (dropZeros fuel n).den := by
  induction fuel generalizing n with
  | zero => exact h
  | succ fuel ih =>
    unfold dropZeros
    split
    · next hc =>
      simp only [Bool.and_eq_true, decide_eq_true_eq] at hc
      refine ih (h.congr (Scientific.den_pos _) (Scientific.den_pos _) ?_)
      have hn : n = ⟨n.digits / 10 * 10 ^ 1, n.exponent + 1 - (1 : Nat)⟩ := by
        obtain ⟨digits, exponent⟩ := n
        congr 1
        · simp only at hc ⊢
          omega
        · simp
      have hz := Scientific.num_mul_den (n.digits / 10) 1 (n.exponent + 1)
      rw [← hn] at hz
      exact hz.symm
    · exact h

theorem covers_candidate? {s : Span} {tie : Tie} {exponent : Int} {found : Scientific}
    (h : s.candidate? tie exponent = some found) : s.Covers found.num found.den := by
  obtain ⟨digits, hdigits, rfl⟩ := Option.map_eq_some_iff.1 h
  exact (s.contains_iff digits exponent).1
    (List.find?_some (p := fun n => s.contains n exponent) hdigits)

/-- The interval of a positive float does not reach down to zero, and the float lies strictly inside
it. -/
theorem spanOf_between {bits : Nat} (hpos : 0 < bits) (hbits : bits < infinityBits) :
    0 < (spanOf bits).low ∧ (spanOf bits).low < (spanOf bits).value ∧
      (spanOf bits).value < (spanOf bits).high := by
  have hfields := Nat.div_add_mod bits leadingBit
  have hexponent : bits / leadingBit % 2048 = bits / leadingBit := by
    simp only [infinityBits, leadingBit] at *
    omega
  simp only [spanOf, hexponent, span, Nat.pow_eq]
  generalize bits / leadingBit = exponentField at *
  generalize bits % leadingBit = fraction at *
  obtain ⟨significand, hsig⟩ : ∃ significand, (if exponentField = 0 then fraction
      else fraction + leadingBit) = significand := ⟨_, rfl⟩
  obtain ⟨below, hbelow⟩ : ∃ below, (if fraction = 0 && 1 < exponentField then 1 else 2) = below :=
    ⟨_, rfl⟩
  obtain ⟨scale, hscale⟩ : ∃ scale, (if 1077 ≤ max exponentField 1
      then 2 ^ (max exponentField 1 - 1077) else 1) = scale := ⟨_, rfl⟩
  have hsignificand : 0 < significand := by
    rw [← hsig]
    split
    · next h0 =>
      rw [h0, Nat.mul_zero, Nat.zero_add] at hfields
      omega
    · simp only [leadingBit]
      omega
  have hbelow' : 0 < below ∧ below ≤ 2 := by
    rw [← hbelow]
    split <;> decide
  have hscale' : 0 < scale := by
    rw [← hscale]
    split <;> positivity
  rw [hsig, hbelow, hscale]
  refine ⟨Nat.mul_pos ?_ hscale', Nat.mul_lt_mul_of_pos_right ?_ hscale',
    Nat.mul_lt_mul_of_pos_right ?_ hscale'⟩ <;> omega

/-- The interval of a float ends below 2 to the 1024, and the common denominator is a power of
two. -/
theorem spanOf_bounds {bits : Nat} (hbits : bits < infinityBits) :
    (spanOf bits).high ≤ 2 ^ 1024 * (spanOf bits).unit ∧
      ∃ places ≤ 1076, (spanOf bits).unit = 2 ^ places := by
  have hfraction : bits % leadingBit < leadingBit := Nat.mod_lt _ (by decide)
  have hexponent : bits / leadingBit % 2048 < 2047 := by
    simp only [infinityBits, leadingBit] at *
    omega
  have hsignificand : 4 * (if bits / leadingBit % 2048 = 0 then bits % leadingBit
      else bits % leadingBit + leadingBit) + 2 ≤ 2 ^ 55 := by
    split <;>
    · simp only [leadingBit] at *
      omega
  simp only [spanOf, span, Nat.pow_eq]
  generalize 4 * (if bits / leadingBit % 2048 = 0 then _ else _) + 2 = top at *
  obtain ⟨power, hpower⟩ : ∃ power, max (bits / leadingBit % 2048) 1 = power := ⟨_, rfl⟩
  rw [hpower]
  -- 2 to the 1024 must not be computed while the exponents are compared
  generalize hlimit : 1024 = limit
  split
  · refine ⟨?_, 0, by decide, rfl⟩
    have hle : 2 ^ (55 + (power - 1077)) ≤ 2 ^ limit :=
      Nat.pow_le_pow_right (by decide) (by omega)
    rw [Nat.mul_one]
    refine Nat.le_trans ?_ hle
    calc top * 2 ^ (power - 1077) ≤ 2 ^ 55 * 2 ^ (power - 1077) :=
          Nat.mul_le_mul_right _ hsignificand
      _ = 2 ^ (55 + (power - 1077)) := (Nat.pow_add ..).symm
  · refine ⟨?_, 1077 - power, by omega, rfl⟩
    have hle : 2 ^ 55 ≤ 2 ^ limit := Nat.pow_le_pow_right (by decide) (by omega)
    exact Nat.mul_le_mul (hsignificand.trans hle) (Nat.two_pow_pos _)

/-- The shortest digits of a positive float lie in its interval. -/
theorem covers_shortest (tie : Tie) {bits : Nat} (hpos : 0 < bits) (hbits : bits < infinityBits) :
    (spanOf bits).Covers (shortest tie bits).num (shortest tie bits).den := by
  have hshortest : shortest tie bits =
      ((spanOf bits).grids.findSome? ((spanOf bits).candidate? tie)).elim
        ⟨(spanOf bits).value * Nat.pow 5 (spanOf bits).unit.log2, -(spanOf bits).unit.log2⟩
        (dropZeros 20) := by
    unfold shortest
    dsimp only
    split
    · next hfound => rw [spanOf, hfound, Option.elim_some]
    · next hfound => rw [spanOf, hfound, Option.elim_none]
  rw [hshortest]
  cases hfound : (spanOf bits).grids.findSome? ((spanOf bits).candidate? tie) with
  | some found =>
    obtain ⟨exponent, -, hcandidate⟩ := List.exists_of_findSome?_eq_some hfound
    exact covers_dropZeros 20 (covers_candidate? hcandidate)
  | none =>
    obtain ⟨-, hlow, hhigh⟩ := spanOf_between hpos hbits
    obtain ⟨-, places, -, hunit⟩ := spanOf_bounds hbits
    have hten : 5 ^ places * 2 ^ places = 10 ^ places := by rw [← Nat.mul_pow]
    have hpow : 0 < 10 ^ places := Nat.pow_pos (by decide)
    -- the value over a power of two, written over the same power of ten
    simp only [Option.elim_none, Scientific.num, Scientific.den, Span.Covers, hunit,
      Nat.log2_two_pow, Nat.pow_eq, Int.neg_neg, Int.toNat_natCast, Int.toNat_neg_natCast,
      Nat.pow_zero, Nat.mul_one, Nat.mul_assoc, hten]
    exact (within_mul_right_iff hpow).2 ⟨hlow.le, hhigh.le, .inr ⟨hlow, hhigh⟩⟩

/-! ## Rounding back -/

/-- A number in an interval that ends below a power of ten has no more digits before the point. -/
theorem length_le_of_covers {s : Span} {n : Scientific} {limit : Nat} (places : Nat)
    (hdigits : 0 < n.digits) (hhigh : s.high ≤ limit * s.unit) (hlimit : limit < 10 ^ places)
    (hunit : 0 < s.unit) (h : s.Covers n.num n.den) :
    (writeNat n.digits).length + n.exponent ≤ places := by
  obtain ⟨digits, exponent⟩ := n
  simp only [Scientific.num, Scientific.den] at h hdigits ⊢
  obtain ⟨-, hle, -⟩ := h
  have hlt : digits * 10 ^ exponent.toNat < 10 ^ (places + (-exponent).toNat) := by
    refine Nat.lt_of_mul_lt_mul_right (a := s.unit) ?_
    calc digits * 10 ^ exponent.toNat * s.unit ≤ s.high * 10 ^ (-exponent).toNat := hle
      _ ≤ limit * s.unit * 10 ^ (-exponent).toNat := Nat.mul_le_mul_right _ hhigh
      _ < 10 ^ places * s.unit * 10 ^ (-exponent).toNat := by gcongr
      _ = 10 ^ (places + (-exponent).toNat) * s.unit := by rw [Nat.pow_add]; ring
  have hplaces : exponent.toNat < places + (-exponent).toNat := by
    refine (Nat.pow_lt_pow_iff_right (a := 10) (by decide)).1 (Nat.lt_of_le_of_lt ?_ hlt)
    exact Nat.le_mul_of_pos_left _ hdigits
  have hlength : (writeNat digits).length ≤ places + (-exponent).toNat - exponent.toNat := by
    refine (Nat.length_toDigits_le_iff (by decide) (by omega)).2 ?_
    refine Nat.lt_of_mul_lt_mul_right (a := 10 ^ exponent.toNat) ?_
    rw [← Nat.pow_add, Nat.sub_add_cancel hplaces.le]
    exact hlt
  omega

/-- A number in an interval over a denominator below a power of ten starts before as many places
after the point. -/
theorem lt_length_of_covers {s : Span} {n : Scientific} (places : Nat) (hlow : 0 < s.low)
    (hunit : s.unit < 10 ^ places) (h : s.Covers n.num n.den) :
    -places < (writeNat n.digits).length + n.exponent := by
  obtain ⟨digits, exponent⟩ := n
  simp only [Scientific.num, Scientific.den] at h ⊢
  obtain ⟨hle, -, -⟩ := h
  refine Int.not_le.1 fun hshort => ?_
  have hlength : 0 < (writeNat digits).length := List.length_pos_iff.2 Nat.toDigits_ne_nil
  obtain ⟨k, hk⟩ : ∃ k : Nat, exponent = -(places + (k : Int)) :=
    ⟨(-places - exponent).toNat, by omega⟩
  have hdigits : digits < 10 ^ k :=
    (Nat.length_toDigits_le_iff (by decide) (by omega)).1 (by simp only [writeNat] at *; omega)
  rw [hk, show (-(places + (k : Int))).toNat = 0 by omega, Nat.pow_zero, Nat.mul_one,
    show (- -(places + (k : Int))).toNat = places + k by omega, Nat.pow_add] at hle
  have hcontra : digits * s.unit < 10 ^ places * 10 ^ k := by
    calc digits * s.unit ≤ 10 ^ k * s.unit := Nat.mul_le_mul_right _ hdigits.le
      _ < 10 ^ k * 10 ^ places := by gcongr
      _ = 10 ^ places * 10 ^ k := Nat.mul_comm ..
  have := Nat.le_mul_of_pos_left (10 ^ places * 10 ^ k) hlow
  omega

/-- A number in an interval that does not reach down to zero has digits other than zero. -/
theorem digits_pos_of_covers {s : Span} {n : Scientific} (hlow : 0 < s.low)
    (h : s.Covers n.num n.den) : 0 < n.digits := by
  refine Nat.pos_of_ne_zero fun hzero => ?_
  have hle := h.1
  simp only [Scientific.num, hzero, Nat.zero_mul] at hle
  have := Nat.mul_pos hlow n.den_pos
  omega

/-- A number in the interval of a positive float is read as that float. -/
theorem nearest_of_covers {bits : Nat} (hpos : 0 < bits) (hbits : bits < infinityBits)
    {n : Scientific} (h : (spanOf bits).Covers n.num n.den) :
    nearest n.digits n.exponent = Float.ofBits (.ofNat bits) := by
  obtain ⟨hlow, -, -⟩ := spanOf_between hpos hbits
  obtain ⟨hhigh, places, hplaces, hunit⟩ := spanOf_bounds hbits
  have hdigits := digits_pos_of_covers hlow h
  -- so the exponent stays within the limits outside which reading does not look at the digits
  have hle := length_le_of_covers 310 hdigits hhigh (by decide +kernel)
    (hunit ▸ Nat.two_pow_pos _) h
  have hge := lt_length_of_covers 331 hlow
    (hunit ▸ (Nat.pow_le_pow_right (by decide) hplaces).trans_lt (by decide +kernel)) h
  have hround := nearestBits_eq n.den_pos hbits h
  obtain ⟨digits, exponent⟩ := n
  simp only [Scientific.num, Scientific.den] at *
  unfold nearest
  rw [if_neg (by simp; omega), if_neg (by omega)]
  cases exponent with
  | ofNat places => rw [← hround]; simp
  | negSucc places => rw [← hround]; simp [Int.neg_negSucc]

/-! ## Reading what is written out -/

theorem valueOf_append_replicate (cs : List Char) (k : Nat) :
    valueOf (cs ++ List.replicate k '0') = valueOf cs * 10 ^ k := by
  rw [valueOf, Nat.ofDigitChars_append, Nat.ofDigitChars_replicate_zero, Nat.mul_comm]
  rfl

theorem valueOf_replicate_append (cs : List Char) (k : Nat) :
    valueOf (List.replicate k '0' ++ cs) = valueOf cs := by
  rw [valueOf, Nat.ofDigitChars_append, Nat.ofDigitChars_replicate_zero, Nat.mul_zero]
  rfl

theorem isDigit_of_mem_writeNat {n : Nat} {c : Char} (h : c ∈ writeNat n) : c.isDigit = true :=
  Nat.isDigit_of_mem_toDigits (by decide) (by decide) h

theorem isDigit_of_mem_replicate {k : Nat} {c : Char} (h : c ∈ List.replicate k '0') :
    c.isDigit = true := by
  rw [List.eq_of_mem_replicate h]
  decide

theorem isDigit_of_mem_zero : ∀ c ∈ ['0'], c.isDigit = true :=
  List.forall_mem_singleton.2 rfl

/-- Digits around a point are read as digits alone, with an exponent. -/
theorem readUnsigned?_point (whole fraction : List Char) (hne : whole ++ fraction ≠ [])
    (hwhole : ∀ c ∈ whole, c.isDigit = true) (hfraction : ∀ c ∈ fraction, c.isDigit = true) :
    readUnsigned? (whole ++ '.' :: fraction) =
      some (nearest (valueOf (whole ++ fraction)) (0 - fraction.length)) := by
  have hpoint : ¬ ('.').isDigit = true := by decide
  have htake : (whole ++ '.' :: fraction).takeWhile Char.isDigit = whole := by
    rw [List.takeWhile_append_of_pos hwhole, List.takeWhile_cons_of_neg hpoint, List.append_nil]
  have hdrop : (whole ++ '.' :: fraction).dropWhile Char.isDigit = '.' :: fraction := by
    rw [List.dropWhile_append_of_pos hwhole, List.dropWhile_cons_of_neg hpoint]
  have htake' : fraction.takeWhile Char.isDigit = fraction :=
    List.takeWhile_eq_self_iff.2 hfraction
  have hdrop' : fraction.dropWhile Char.isDigit = [] := List.dropWhile_eq_nil_iff.2 hfraction
  have hempty : ¬(whole = [] ∧ fraction = []) := mt List.append_eq_nil_iff.2 hne
  simp [readUnsigned?, htake, hdrop, htake', hdrop', hempty, readExponent?]

/-- A whole number with zeros behind its digits, and one behind the point. -/
theorem readUnsigned?_whole (digits zeros : Nat) :
    readUnsigned? (writeNat digits ++ List.replicate zeros '0' ++ ['.', '0']) =
      some (nearest (digits * 10 ^ (zeros + 1)) (-1)) := by
  have hne : writeNat digits ≠ [] := Nat.toDigits_ne_nil
  have hread := readUnsigned?_point (writeNat digits ++ List.replicate zeros '0') ['0']
    (by simp [hne])
    (List.forall_mem_append.2 ⟨fun c => isDigit_of_mem_writeNat, fun c => isDigit_of_mem_replicate⟩)
    isDigit_of_mem_zero
  have hvalue : valueOf (writeNat digits ++ List.replicate zeros '0' ++ ['0']) =
      digits * 10 ^ (zeros + 1) := by
    rw [List.append_assoc, ← List.replicate_succ', valueOf_append_replicate, valueOf_writeNat]
  rwa [hvalue] at hread

/-- Digits with the point among them. -/
theorem readUnsigned?_mixed {digits places : Nat} (h : places < (writeNat digits).length) :
    readUnsigned? ((writeNat digits).take ((writeNat digits).length - places) ++
        '.' :: (writeNat digits).drop ((writeNat digits).length - places)) =
      some (nearest digits (-places)) := by
  have hne : writeNat digits ≠ [] := Nat.toDigits_ne_nil
  have hread := readUnsigned?_point
    ((writeNat digits).take ((writeNat digits).length - places))
    ((writeNat digits).drop ((writeNat digits).length - places))
    (by rwa [List.take_append_drop]) (fun c hc => isDigit_of_mem_writeNat (List.mem_of_mem_take hc))
    (fun c hc => isDigit_of_mem_writeNat (List.mem_of_mem_drop hc))
  have hlength : (0 : Int) - ((writeNat digits).length -
      ((writeNat digits).length - places) : Nat) = -places := by omega
  rwa [List.take_append_drop, valueOf_writeNat, List.length_drop, hlength] at hread

/-- Digits behind the point, perhaps with zeros before them. -/
theorem readUnsigned?_fraction {digits places : Nat} (h : (writeNat digits).length ≤ places) :
    readUnsigned? (['0', '.'] ++ List.replicate (places - (writeNat digits).length) '0' ++
        writeNat digits) =
      some (nearest digits (-places)) := by
  have hread := readUnsigned?_point ['0']
    (List.replicate (places - (writeNat digits).length) '0' ++ writeNat digits)
    (List.cons_ne_nil _ _) isDigit_of_mem_zero
    (List.forall_mem_append.2 ⟨fun c => isDigit_of_mem_replicate, fun c => isDigit_of_mem_writeNat⟩)
  have hvalue : valueOf (['0'] ++ (List.replicate (places - (writeNat digits).length) '0' ++
      writeNat digits)) = digits :=
    (valueOf_replicate_append (writeNat digits) (places - (writeNat digits).length + 1)).trans
      (valueOf_writeNat digits)
  have hlength : (0 : Int) - (places - (writeNat digits).length + (writeNat digits).length : Nat) =
      -places := by omega
  rw [hvalue, List.length_append, List.length_replicate, hlength] at hread
  rw [List.append_assoc]
  exact hread

/-- A number written out is read as its digits, perhaps with zeros added at the end. -/
theorem readUnsigned?_positional (n : Scientific) :
    ∃ k : Nat, readUnsigned? (positional n) =
      some (nearest (n.digits * 10 ^ k) (n.exponent - k)) := by
  obtain ⟨digits, exponent⟩ := n
  unfold positional
  cases exponent with
  | ofNat zeros =>
    refine ⟨zeros + 1, ?_⟩
    have hexponent : Int.ofNat zeros - (zeros + 1 : Nat) = -1 := by
      simp only [Int.ofNat_eq_natCast]
      omega
    simp only [hexponent]
    exact readUnsigned?_whole digits zeros
  | negSucc n =>
    refine ⟨0, ?_⟩
    simp only [Nat.pow_zero, Nat.mul_one, Int.negSucc_eq, Int.natCast_zero, Int.sub_zero]
    split
    · next hlt => exact readUnsigned?_mixed hlt
    · next hge => exact readUnsigned?_fraction (Nat.le_of_not_lt hge)

/-! ## Signs and names -/

/-- A text that is read without a sign does not start with one. -/
theorem readDecimal?_of_readMagnitude? {cs : List Char} {x : Float}
    (h : readMagnitude? cs = some x) : readDecimal? cs = some x := by
  have hsign : ∀ c : Char, c = '-' ∨ c = '+' → ∀ cs, readMagnitude? (c :: cs) = none := by
    rintro c (rfl | rfl) cs <;> simp [readMagnitude?, readUnsigned?, Char.isDigit, Char.toLower]
  unfold readDecimal?
  split
  · rw [hsign _ (.inl rfl)] at h
    cases h
  · rw [hsign _ (.inr rfl)] at h
    cases h
  · exact h

/-- The magnitude of a finite decimal is read back. -/
theorem readMagnitude?_writeMagnitude {x : Float} (h : magnitudeBits x < infinityBits) :
    readMagnitude? (writeMagnitude x) = some (Float.ofBits (.ofNat (magnitudeBits x))) := by
  suffices hread : readUnsigned? (writeMagnitude x) =
      some (Float.ofBits (.ofNat (magnitudeBits x))) by
    rw [readMagnitude?, hread]
    rfl
  unfold writeMagnitude
  split
  · next hzero =>
    have hread := readUnsigned?_point ['0'] ['0']
      (List.cons_ne_nil _ _) isDigit_of_mem_zero isDigit_of_mem_zero
    have hbits : (0.0 : Float) = Float.ofBits (.ofNat 0) := by decide
    rw [hzero, ← hbits]
    exact hread
  · next hzero =>
    have hpos := Nat.pos_of_ne_zero hzero
    -- zeros that were added to the digits do not leave the interval
    obtain ⟨k, hk⟩ := readUnsigned?_positional (shortest .up (magnitudeBits x))
    have hcovers := Span.Covers.shift k (covers_shortest .up hpos h)
    rw [hk]
    exact congrArg some (nearest_of_covers hpos h hcovers)

/-- Every decimal is read back from its text. -/
theorem readDecimal?_writeDecimal (x : Float) : readDecimal? (writeDecimal x) = some x := by
  unfold writeDecimal
  split
  · next hnan =>
    have hread : readDecimal? "NaN".toList = some undefined := by decide
    rw [hread, eq_undefined hnan]
  · next hnan =>
    have hle : magnitudeBits x ≤ infinityBits := by
      have := mt (isNaN_iff x).2 hnan
      omega
    have hread : readMagnitude? (if x.isFinite then writeMagnitude x else "inf".toList) =
        some (Float.ofBits (.ofNat (magnitudeBits x))) := by
      split
      · next hfinite => exact readMagnitude?_writeMagnitude ((isFinite_iff x).1 hfinite)
      · next hfinite =>
        have hinf : magnitudeBits x = infinityBits := by
          have := mt (isFinite_iff x).2 hfinite
          omega
        rw [hinf]
        decide
    have hx := eq_ofBits_or_neg hle
    dsimp only
    split
    · next hsign =>
      rw [if_pos hsign] at hx
      rw [readDecimal?, hread, Option.map_some, ← hx]
    · next hsign =>
      rw [if_neg hsign] at hx
      rw [readDecimal?_of_readMagnitude? hread, ← hx]

end RecordStore.Numeral

import Mathlib
import RecordStore.Numeral.Decimal

/-!
# A decimal and its bits

A decimal is known by its bits: the sign, eleven bits of exponent and fifty-two of fraction. Reading
and writing look at nothing else, so everything about them can be said of natural numbers.

- `ofBits_toBits`: a decimal is made again from its bits;
- `isFinite_iff`, `isNaN_iff`: the bits without the sign say whether a decimal is a number;
- `eq_ofBits_or_neg`: a decimal that is a number, or infinite, is its magnitude or the opposite;
- `eq_undefined`: there is one value that is no number;
- `sub_self_of_isFinite`: a finite decimal does not differ from itself.
-/

namespace RecordStore.Numeral

open Float.Model Float.Model.UnpackedFloat

/-! ## The fields of a word -/

/-- The bits of a decimal as one word. -/
abbrev Packed := BitVec (Format.numBits .binary64)

theorem toNat_unpackMantissa (b : Packed) : (unpackMantissa b).toNat = b.toNat % leadingBit := by
  simp [unpackMantissa, leadingBit]

theorem toNat_unpackExponent (b : Packed) :
    (unpackExponent b).toNat = b.toNat / leadingBit % 2048 := by
  simp [unpackExponent, leadingBit, Nat.shiftRight_eq_div_pow]

theorem toNat_unpackSign (b : Packed) : (unpackSign b).toNat = b.toNat / signBit := by
  have hb : b.toNat < 2 ^ 64 := b.isLt
  simp only [unpackSign, signBit, Nat.shiftRight_eq_div_pow, BitVec.toNat_cast,
    BitVec.extractLsb_toNat]
  omega

theorem toNat_packComponents (s : Sign) (e : BitVec 11) (m : BitVec 52) :
    (packComponents .binary64 s e m).toNat =
      s.toBitVec.toNat * signBit + e.toNat * leadingBit + m.toNat := by
  show ((s.toBitVec ++ e) ++ m).toNat = _
  rw [BitVec.toNat_append, BitVec.toNat_append, ← Nat.shiftLeft_add_eq_or_of_lt m.isLt,
    ← Nat.shiftLeft_add_eq_or_of_lt e.isLt]
  simp only [Nat.shiftLeft_eq, signBit, leadingBit]
  omega

/-- A word put together again from the fields it was taken apart into. -/
theorem packComponents_of_fields {b : Packed} {e : BitVec 11} {m : BitVec 52}
    (he : unpackExponent b = e) (hm : unpackMantissa b = m) :
    packComponents .binary64 (.ofBitVec (unpackSign b)) e m = b := by
  have hs : ∀ v : BitVec 1, (Sign.ofBitVec v).toBitVec = v := by decide
  have hb : b.toNat < 2 ^ 64 := b.isLt
  subst he hm
  refine BitVec.eq_of_toNat_eq ?_
  rw [toNat_packComponents, hs, toNat_unpackMantissa, toNat_unpackExponent, toNat_unpackSign]
  simp only [signBit, leadingBit]
  omega

/-- The exponent of a word is all ones from the bits of infinity on. -/
theorem unpackExponent_eq_ones_iff (b : Packed) :
    unpackExponent b = -1#11 ↔ infinityBits ≤ b.toNat % signBit := by
  have he := toNat_unpackExponent b
  simp only [signBit, infinityBits, leadingBit] at *
  constructor
  · intro hones
    have : (unpackExponent b).toNat = 2047 := congrArg BitVec.toNat hones
    omega
  · intro hle
    refine BitVec.eq_of_toNat_eq ?_
    show _ = 2047
    omega

theorem unpackMantissa_eq_zero_iff (b : Packed) :
    unpackMantissa b = 0#52 ↔ b.toNat % leadingBit = 0 := by
  rw [← toNat_unpackMantissa]
  exact ⟨fun h => congrArg BitVec.toNat h, fun h => BitVec.eq_of_toNat_eq h⟩

/-! ## Taking apart and putting together -/

theorem log2_eq_of_lt {n k : Nat} (h₁ : 2 ^ k ≤ n) (h₂ : n < 2 ^ (k + 1)) : n.log2 = k := by
  have hn : n ≠ 0 := by have := Nat.two_pow_pos k; omega
  have := (Nat.le_log2 hn).2 h₁
  have := (Nat.log2_lt hn).2 h₂
  omega

/-- A small number keeps its mantissa and has no exponent. -/
theorem pack_subnormal (s : Sign) (m : BitVec 52) (hm : 0 < m.toNat) :
    UnpackedFloat.pack .binary64 (.finite s m.toNat (-1074) hm) =
      packComponents .binary64 s 0#11 m := by
  have hlog : m.toNat.log2 < 52 := (Nat.log2_lt (Nat.ne_of_gt hm)).2 m.isLt
  have hbits : Format.mantissaBits .binary64 = 53 := rfl
  simp only [UnpackedFloat.pack]
  rw [if_neg (by decide), if_neg (by omega), BitVec.ofNat_toNat, BitVec.setWidth_eq]

/-- Any other number has an exponent, and a leading bit that is left out. -/
theorem pack_normal (s : Sign) (e : BitVec 11) (m : BitVec 52) (he : e ≠ -1#11)
    (hpos : 0 < (1#1 ++ m).toNat) :
    UnpackedFloat.pack .binary64 (.finite s (1#1 ++ m).toNat (e.toNat - 1075) hpos) =
      packComponents .binary64 s e m := by
  have happ : (1#1 ++ m).toNat = 2 ^ 52 + m.toNat := by
    rw [BitVec.toNat_append, ← Nat.shiftLeft_add_eq_or_of_lt m.isLt]
    rfl
  have hne : e.toNat ≠ 2047 := fun hc => he (BitVec.eq_of_toNat_eq hc)
  have hlt : e.toNat < 2048 := e.isLt
  have hlog : (1#1 ++ m).toNat.log2 + 1 = Format.mantissaBits .binary64 := by
    rw [log2_eq_of_lt (k := 52) (by omega) (by omega)]
    rfl
  have hexp : ((e.toNat : Int) - 1075 + (1023 : Nat) + (52 : Nat)).toNat = e.toNat := by omega
  -- the leading bit does not fit and is cut off
  have hmant : BitVec.ofNat 52 (1#1 ++ m).toNat = m := by
    refine BitVec.eq_of_toNat_eq ?_
    rw [BitVec.toNat_ofNat, happ]
    omega
  simp only [UnpackedFloat.pack]
  rw [show Format.exponentBias .binary64 = 1023 from rfl, hexp, if_neg (by omega), if_pos hlog,
    hmant, BitVec.ofNat_toNat, BitVec.setWidth_eq]

theorem pack_unpack {b : Packed} (h : Format.Valid .binary64 b) :
    UnpackedFloat.pack .binary64 (UnpackedFloat.unpack .binary64 b) = b := by
  simp only [UnpackedFloat.unpack]
  split
  -- an exponent of all ones stands for infinity or the undefined value
  · next hones =>
    split
    · next hm => exact packComponents_of_fields hones hm
    · next hm => exact (h.eq_packedNaN hones hm).symm
  · next hones =>
    split
    · next he =>
      split
      · next hm => exact packComponents_of_fields he hm
      · next hm =>
        rw [he]
        exact (pack_subnormal _ _ _).trans (packComponents_of_fields he rfl)
    · exact (pack_normal _ _ _ hones _).trans (packComponents_of_fields rfl rfl)

/-- A decimal is made again from its bits. -/
theorem ofBits_toBits (x : Float) : Float.ofBits x.toBits = x := by
  obtain ⟨⟨bits, hvalid⟩⟩ := x
  have h : UnpackedFloat.pack .binary64 (UnpackedFloat.unpack .binary64 bits.toBitVec) =
      bits.toBitVec := pack_unpack hvalid
  simp only [Float.ofBits, Float.toBits, Float.Model.ofBits, Float.Model.pack, h]

/-! ## Numbers, infinities and the undefined value -/

theorem isFinite_unpack (b : Packed) :
    (UnpackedFloat.unpack .binary64 b).isFinite = true ↔ b.toNat % signBit < infinityBits := by
  have hones := unpackExponent_eq_ones_iff b
  unfold UnpackedFloat.unpack
  by_cases h : unpackExponent b = -1#11
  · rw [if_pos h]
    have := hones.1 h
    split <;> simp only [UnpackedFloat.isFinite, Bool.false_eq_true, false_iff] <;> omega
  · rw [if_neg h]
    have := mt hones.2 h
    split
    · split <;> simp only [UnpackedFloat.isFinite, true_iff] <;> omega
    · simp only [UnpackedFloat.isFinite, true_iff]
      omega

theorem isNaN_unpack (b : Packed) :
    (UnpackedFloat.unpack .binary64 b).isNaN = true ↔ infinityBits < b.toNat % signBit := by
  have hones := unpackExponent_eq_ones_iff b
  have hzero := unpackMantissa_eq_zero_iff b
  unfold UnpackedFloat.unpack
  by_cases h : unpackExponent b = -1#11
  · rw [if_pos h]
    have hle := hones.1 h
    split
    · next hm =>
      have := hzero.1 hm
      simp only [UnpackedFloat.isNaN, Bool.false_eq_true, false_iff]
      simp only [infinityBits, signBit, leadingBit] at *
      omega
    · next hm =>
      have := mt hzero.2 hm
      simp only [UnpackedFloat.isNaN, true_iff]
      simp only [infinityBits, signBit, leadingBit] at *
      omega
  · rw [if_neg h]
    have := mt hones.2 h
    split
    · split <;> simp only [UnpackedFloat.isNaN, Bool.false_eq_true, false_iff] <;> omega
    · simp only [UnpackedFloat.isNaN, Bool.false_eq_true, false_iff]
      omega

/-- A decimal is finite if its bits without the sign are below those of infinity. -/
theorem isFinite_iff (x : Float) : x.isFinite = true ↔ magnitudeBits x < infinityBits :=
  isFinite_unpack x.toModel.toBits.toBitVec

/-- A decimal is undefined if its bits without the sign are above those of infinity. -/
theorem isNaN_iff (x : Float) : x.isNaN = true ↔ infinityBits < magnitudeBits x :=
  isNaN_unpack x.toModel.toBits.toBitVec

/-- Every undefined decimal has the same bits. -/
theorem eq_undefined {x : Float} (h : x.isNaN = true) : x = undefined := by
  obtain ⟨⟨bits, hvalid⟩⟩ := x
  have hbits : bits.toBitVec = packedNaN .binary64 := by
    have hlt := (isNaN_iff _).1 h
    change infinityBits < bits.toBitVec.toNat % signBit at hlt
    refine hvalid.eq_packedNaN ((unpackExponent_eq_ones_iff _).2 (Nat.le_of_lt hlt)) ?_
    intro hm
    have hzero := (unpackMantissa_eq_zero_iff _).1 hm
    simp only [infinityBits, signBit, leadingBit] at *
    omega
  have hu : undefined.toBits.toBitVec = packedNaN .binary64 := by decide
  rw [← ofBits_toBits undefined, ← ofBits_toBits ⟨⟨bits, hvalid⟩⟩]
  exact congrArg Float.ofBits (UInt64.toBitVec_inj.1 (hbits.trans hu.symm))

/-! ## Signs -/

theorem valid_of_le {b : Packed} (h : b.toNat % signBit ≤ infinityBits) :
    Format.Valid .binary64 b := by
  refine ⟨fun hones hm => absurd ((unpackMantissa_eq_zero_iff b).2 ?_) hm⟩
  have := (unpackExponent_eq_ones_iff b).1 hones
  simp only [signBit, infinityBits, leadingBit] at *
  omega

/-- Setting the sign bit of a word turns it into its opposite. -/
theorem unpack_eq_neg {a b : Packed} (ha : a.toNat < signBit) (hb : b.toNat = a.toNat + signBit) :
    UnpackedFloat.unpack .binary64 b = (UnpackedFloat.unpack .binary64 a).neg := by
  have hm : unpackMantissa b = unpackMantissa a := by
    refine BitVec.eq_of_toNat_eq ?_
    rw [toNat_unpackMantissa, toNat_unpackMantissa, hb]
    simp only [signBit, leadingBit]
    omega
  have he : unpackExponent b = unpackExponent a := by
    refine BitVec.eq_of_toNat_eq ?_
    rw [toNat_unpackExponent, toNat_unpackExponent, hb]
    simp only [signBit, leadingBit]
    omega
  have hsa : unpackSign a = 0#1 := by
    refine BitVec.eq_of_toNat_eq ?_
    rw [toNat_unpackSign, Nat.div_eq_of_lt ha]
    rfl
  have hsb : unpackSign b = 1#1 := by
    refine BitVec.eq_of_toNat_eq ?_
    rw [toNat_unpackSign, hb, Nat.add_div_right _ (by decide), Nat.div_eq_of_lt ha]
    rfl
  simp only [UnpackedFloat.unpack, hm, he, hsa, hsb]
  split
  · split <;> rfl
  · split
    · split <;> rfl
    · rfl

theorem neg_ofBits {m : Nat} (h : m ≤ infinityBits) :
    -Float.ofBits (.ofNat m) = Float.ofBits (.ofNat (m + signBit)) := by
  have hlt : m < signBit := Nat.lt_of_le_of_lt h (by decide)
  have hm : (UInt64.ofNat m).toBitVec.toNat = m := by
    rw [UInt64.toNat_toBitVec, UInt64.toNat_ofNat']
    simp only [signBit] at hlt
    omega
  have hs : (UInt64.ofNat (m + signBit)).toBitVec.toNat = m + signBit := by
    rw [UInt64.toNat_toBitVec, UInt64.toNat_ofNat']
    simp only [signBit] at *
    omega
  -- the word is taken apart, turned around and packed again; only a valid one survives that
  have hp := pack_unpack (b := (UInt64.ofNat m).toBitVec)
    (valid_of_le (by rw [hm, Nat.mod_eq_of_lt hlt]; exact h))
  have hn := unpack_eq_neg (a := (UInt64.ofNat m).toBitVec)
    (b := (UInt64.ofNat (m + signBit)).toBitVec) (by rw [hm]; exact hlt) (by rw [hm, hs])
  simp only [Float.ofBits, Float.Model.ofBits, Float.Model.pack, hn]
  show Float.ofModel (Float.Model.neg _) = _
  simp only [Float.Model.neg, Float.Model.unpack, Float.Model.pack, hp]

/-- A decimal that is a number, or infinite, is its magnitude or the opposite of it. -/
theorem eq_ofBits_or_neg {x : Float} (h : magnitudeBits x ≤ infinityBits) :
    x = if hasSign x then -Float.ofBits (.ofNat (magnitudeBits x))
      else Float.ofBits (.ofNat (magnitudeBits x)) := by
  have hlt : x.toBits.toNat < 2 ^ 64 := x.toBits.toNat_lt
  rw [neg_ofBits h]
  unfold hasSign magnitudeBits
  split
  · next hs =>
    have hs := of_decide_eq_true hs
    have hx : x.toBits.toNat % signBit + signBit = x.toBits.toNat := by
      simp only [signBit] at *
      omega
    rw [hx, UInt64.ofNat_toNat, ofBits_toBits]
  · next hs =>
    have hs := of_decide_eq_false (Bool.eq_false_iff.2 hs)
    rw [Nat.mod_eq_of_lt (Nat.lt_of_not_le hs), UInt64.ofNat_toNat, ofBits_toBits]

/-! ## Differences -/

/-- A finite decimal taken from itself leaves zero. -/
theorem sub_self_of_isFinite {x : Float} (h : x.isFinite = true) : x - x = 0.0 := by
  have hfinite : x.toModel.unpack.isFinite = true := h
  have hzero : UnpackedFloat.sub .binary64 x.toModel.unpack x.toModel.unpack =
      .zero .positive := by
    cases hx : x.toModel.unpack with
    | notANumber =>
      rw [hx] at hfinite
      cases hfinite
    | infinity s =>
      rw [hx] at hfinite
      cases hfinite
    | zero s => cases s <;> rfl
    | finite s m e hm =>
      -- the exponents agree already, so the mantissas cancel before anything is rounded
      simp only [UnpackedFloat.sub, Int.sub_self, UnpackedFloat.normalize]
      rfl
  show Float.ofModel (Float.Model.pack _) = _
  rw [hzero]
  rfl

end RecordStore.Numeral

import SchemaMatch.Proofs.Precision.Arithmetic

/-!
# Widening and narrowing

Going up to double precision moves the bit fields of a number to their places in the longer format,
or scales the fraction of a subnormal number. Both give the same real number (`value_widen`), and
neither changes its kind (`rising_widen`, `beyond_widen`). Going down rounds, but keeps what is not
below zero: `zero_le_narrow`.
-/

namespace SchemaMatch

open Float.Model Float.Model.UnpackedFloat Precision Double

/-! ## Bits -/

variable (x : Float32)

/-- The bits of a single-precision number. -/
abbrev singleBits : BitVec Format.binary32.numBits := x.toBits.toBitVec

theorem unpack_single :
    x.toModel.unpack =
      if exponentOf (singleBits x) = 255 then
        if fractionOf (singleBits x) = 0 then .infinity (signOf (singleBits x)) else .notANumber
      else if exponentOf (singleBits x) = 0 then
        if h : fractionOf (singleBits x) = 0 then .zero (signOf (singleBits x))
        else
          .finite (signOf (singleBits x)) (fractionOf (singleBits x)) (-149) (Nat.pos_of_ne_zero h)
      else
        .finite (signOf (singleBits x)) (2 ^ 23 + fractionOf (singleBits x))
          (exponentOf (singleBits x) - 1 + -149) (by positivity) :=
  unpack_eq (singleBits x)

theorem toNat_exponent :
    ((x.toBits.toUInt64 >>> 23) &&& 0xFF).toNat = exponentOf (singleBits x) := by
  rw [UInt64.toNat_and, UInt64.toNat_shiftRight, UInt32.toNat_toUInt64]
  exact (Nat.and_two_pow_sub_one_eq_mod _ 8).trans
    (congrArg (· % 2 ^ 8) (Nat.shiftRight_eq_div_pow _ 23))

theorem toNat_fraction :
    (x.toBits.toUInt64 &&& 0x7FFFFF).toNat = fractionOf (singleBits x) := by
  rw [UInt64.toNat_and, UInt32.toNat_toUInt64]
  exact Nat.and_two_pow_sub_one_eq_mod _ 23

theorem negative_iff :
    (x.toBits.toUInt64 >>> 31 != 0) = true ↔ signOf (singleBits x) = .negative := by
  have hlt := x.toBits.toNat_lt
  have hsign : (unpackSign (singleBits x)).toNat = x.toBits.toNat / 2 ^ 31 % 2 := toNat_unpackSign _
  have hshift : (x.toBits.toUInt64 >>> 31).toNat = x.toBits.toNat / 2 ^ 31 := by
    rw [UInt64.toNat_shiftRight, UInt32.toNat_toUInt64]
    exact Nat.shiftRight_eq_div_pow _ 31
  rw [bne_iff_ne, ne_eq, ← UInt64.toNat_inj, hshift, signOf, Sign.ofBitVec]
  split
  · next hpos =>
    rw [hpos] at hsign
    simp at hsign ⊢
    omega
  · next hne =>
    have hne : (unpackSign (singleBits x)).toNat ≠ 0 := fun h => hne (BitVec.eq_of_toNat_eq h)
    simp
    omega

variable {x}

/-- The bits of an exponent and a fraction, each moved to its place. -/
theorem toNat_or_shiftLeft {e f : UInt64} (he : e.toNat < 2047) (hf : f.toNat < 2 ^ 23) :
    ((e <<< 52) ||| (f <<< 29)).toNat = 2 ^ 52 * e.toNat + f.toNat * 2 ^ 29 := by
  rw [UInt64.toNat_or, UInt64.toNat_shiftLeft, UInt64.toNat_shiftLeft]
  change e.toNat <<< 52 % 2 ^ 64 ||| f.toNat <<< 29 % 2 ^ 64 = _
  rw [Nat.shiftLeft_eq, Nat.shiftLeft_eq, Nat.mod_eq_of_lt (by omega),
    Nat.mod_eq_of_lt (by omega), mul_comm, Nat.two_pow_add_eq_or_of_lt (by omega)]

/-- The least positive single-precision number. -/
theorem value_least : Double.value (Float.ofBits ((1023 - 149 : UInt64) <<< 52)) = 2 ^ (-149 : ℤ) ∧
    Within (-149) (Float.ofBits ((1023 - 149 : UInt64) <<< 52)) := by
  have hunpack : (Float.ofBits ((1023 - 149 : UInt64) <<< 52)).toModel.unpack =
      .finite .positive (2 ^ 52) (-201) (by decide) := rfl
  have hvalue : Double.value (Float.ofBits ((1023 - 149 : UInt64) <<< 52)) = 2 ^ (-149 : ℤ) := by
    rw [Double.value, hunpack, Precision.value, Sign.apply]
    norm_num
  refine ⟨hvalue, rfl, ?_⟩
  rw [hvalue, abs_of_pos (by positivity)]

section Finite

variable (x)

/-- The double-precision number without a sign that a subnormal number is widened to. -/
def subnormalMagnitude : Float :=
  (x.toBits.toUInt64 &&& 0x7FFFFF).toFloat * Float.ofBits ((1023 - 149 : UInt64) <<< 52)

/-- The double-precision number without a sign that a normal number is widened to. -/
def normalMagnitude : Float :=
  Float.ofBits (((((x.toBits.toUInt64 >>> 23) &&& 0xFF) + (1023 - 127)) <<< 52) |||
    ((x.toBits.toUInt64 &&& 0x7FFFFF) <<< 29))

variable {x}

theorem widen_of_subnormal (h : exponentOf (singleBits x) = 0) :
    widen x = if x.toBits.toUInt64 >>> 31 != 0 then -subnormalMagnitude x
      else subnormalMagnitude x := by
  have hequal : ((x.toBits.toUInt64 >>> 23) &&& 0xFF == 0) = true := by
    rw [beq_iff_eq, ← UInt64.toNat_inj, toNat_exponent, h]
    rfl
  simp only [widen, hequal, if_true, subnormalMagnitude]

theorem widen_of_normal (h : exponentOf (singleBits x) ≠ 0)
    (h' : exponentOf (singleBits x) ≠ 255) :
    widen x = if x.toBits.toUInt64 >>> 31 != 0 then -normalMagnitude x else normalMagnitude x := by
  have hequal : ((x.toBits.toUInt64 >>> 23) &&& 0xFF == 0) = false := by
    rw [beq_eq_false_iff_ne, ne_eq, ← UInt64.toNat_inj, toNat_exponent]
    exact h
  have hequal' : ((x.toBits.toUInt64 >>> 23) &&& 0xFF == 0xFF) = false := by
    rw [beq_eq_false_iff_ne, ne_eq, ← UInt64.toNat_inj, toNat_exponent]
    exact h'
  simp only [widen, hequal, hequal', Bool.false_eq_true, if_false, normalMagnitude]

theorem fractionOf_lt : fractionOf (singleBits x) < 2 ^ 23 := Nat.mod_lt _ (by positivity)

theorem value_subnormalMagnitude :
    Within 128 (subnormalMagnitude x) ∧
      Double.value (subnormalMagnitude x) = fractionOf (singleBits x) * 2 ^ (-149 : ℤ) := by
  have hfraction := toNat_fraction x
  have hlt := fractionOf_lt (x := x)
  obtain ⟨hvalue, hwithin⟩ := value_toFloat (b := 23) (by omega) (hfraction ▸ hlt)
  obtain ⟨hleast, hwithin'⟩ := value_least
  obtain ⟨hnearest, hproduct⟩ := nearest_mul hwithin hwithin' (by omega) (by omega)
  rw [hvalue, hleast, hfraction] at hnearest
  refine ⟨hproduct.mono (by omega), ?_⟩
  exact hnearest.value_eq (j := fractionOf (singleBits x)) (u := -149) (by simp)
    (by rw [Nat.abs_cast]; omega) (by omega)

theorem unpack_normalMagnitude :
    (normalMagnitude x).toModel.unpack =
      .finite .positive (2 ^ 52 + fractionOf (singleBits x) * 2 ^ 29)
        ((exponentOf (singleBits x) + 896 : ℕ) - 1075) (by positivity) := by
  have hlt := fractionOf_lt (x := x)
  have hfraction := toNat_fraction x
  have hexponent : exponentOf (singleBits x) < 2 ^ 8 := Nat.mod_lt _ (by positivity)
  have hsum : (((x.toBits.toUInt64 >>> 23) &&& 0xFF) + (1023 - 127)).toNat =
      exponentOf (singleBits x) + 896 := by
    have hbias : (1023 - 127 : UInt64).toNat = 896 := rfl
    rw [UInt64.toNat_add, toNat_exponent, hbias, Nat.mod_eq_of_lt (by omega)]
  have hnat := toNat_or_shiftLeft (e := ((x.toBits.toUInt64 >>> 23) &&& 0xFF) + (1023 - 127))
    (by omega) (hfraction ▸ hlt)
  rw [hsum, hfraction] at hnat
  exact unpack_ofBits_of_toNat hnat (by omega) (by omega) (by omega)

/-- The fraction moves to the upper bits of a longer mantissa. -/
theorem longer_mantissa (fraction exponent : ℕ) :
    ((2 ^ 23 + fraction : ℕ) : ℝ) * 2 ^ (exponent - 1 + -149 : ℤ) =
      (2 ^ 52 + fraction * 2 ^ 29 : ℕ) * 2 ^ ((exponent + 896 : ℕ) - 1075 : ℤ) := by
  have hshift : (exponent - 1 + -149 : ℤ) = (exponent + 896 : ℕ) - 1075 + 29 := by
    push_cast
    ring
  rw [hshift, zpow_add₀ two_ne_zero]
  push_cast
  norm_num
  ring

theorem value_normalMagnitude (h : exponentOf (singleBits x) ≠ 0)
    (h' : exponentOf (singleBits x) ≠ 255) :
    Within 128 (normalMagnitude x) ∧ Double.value (normalMagnitude x) =
      (2 ^ 23 + fractionOf (singleBits x) : ℕ) *
        2 ^ (exponentOf (singleBits x) - 1 + -149 : ℤ) := by
  have hunpack := unpack_normalMagnitude (x := x)
  have hvalue : Double.value (normalMagnitude x) =
      (2 ^ 23 + fractionOf (singleBits x) : ℕ) *
        2 ^ (exponentOf (singleBits x) - 1 + -149 : ℤ) := by
    rw [Double.value, hunpack, Precision.value, longer_mantissa]
    rfl
  refine ⟨⟨?_, ?_⟩, hvalue⟩
  · change UnpackedFloat.isFinite _ = true
    rw [hunpack]
    rfl
  · have hlt : |Precision.value x.toModel.unpack| < 2 ^ (128 : ℤ) :=
      abs_value_unpack_lt (singleBits x)
    rw [unpack_single, if_neg h', if_neg h, abs_value_finite] at hlt
    rw [hvalue, abs_of_pos (by positivity)]
    exact hlt.le

end Finite

/-- The double-precision number without a sign that a finite single-precision one is widened to. -/
theorem exists_magnitude (hx : x.isFinite = true) :
    ∃ y : Float, widen x = (if x.toBits.toUInt64 >>> 31 != 0 then -y else y) ∧ Within 128 y ∧
      Precision.value x.toModel.unpack =
        ((signOf (singleBits x)).apply 1 : ℤ) * Double.value y := by
  have hx : x.toModel.unpack.isFinite = true := hx
  have hones : exponentOf (singleBits x) ≠ 255 := by
    intro hones
    rw [unpack_single, if_pos hones] at hx
    split at hx <;> cases hx
  rw [unpack_single, if_neg hones]
  by_cases hzero : exponentOf (singleBits x) = 0
  · -- A subnormal number is a product, which its few digits make exact.
    obtain ⟨hwithin, hvalue⟩ := value_subnormalMagnitude (x := x)
    refine ⟨_, widen_of_subnormal hzero, hwithin, ?_⟩
    rw [hvalue, if_pos hzero]
    split
    · next h => simp [Precision.value, h]
    · rw [Precision.value, cast_apply, mul_assoc]
  · -- Any other number keeps its bits, and has no arithmetic done to it.
    obtain ⟨hwithin, hvalue⟩ := value_normalMagnitude hzero hones
    refine ⟨_, widen_of_normal hzero hones, hwithin, ?_⟩
    rw [hvalue, if_neg hzero, Precision.value, cast_apply, mul_assoc]

/-- Going up is exact. -/
theorem value_widen (hx : x.isFinite = true) :
    Within 128 (widen x) ∧ Double.value (widen x) = Precision.value x.toModel.unpack := by
  obtain ⟨y, hwiden, hwithin, hvalue⟩ := exists_magnitude hx
  obtain ⟨hneg, hwithin'⟩ := hwithin.neg (by omega) (by omega)
  rw [hwiden, hvalue]
  cases hsign : signOf (singleBits x) with
  | negative =>
    rw [if_pos ((negative_iff x).2 hsign), hneg]
    exact ⟨hwithin', by simp [Sign.apply]⟩
  | positive =>
    have hpositive : ¬(x.toBits.toUInt64 >>> 31 != 0) = true := by
      rw [negative_iff, hsign]
      exact Sign.noConfusion
    rw [if_neg hpositive]
    exact ⟨hwithin, by simp [Sign.apply]⟩

/-- Infinity goes up to infinity. -/
theorem unpack_widen_infinity (hx : x.toModel.unpack = .infinity .positive) :
    (widen x).toModel.unpack = .infinity .positive := by
  rw [unpack_single] at hx
  have hones : exponentOf (singleBits x) = 255 := by
    by_contra hones
    rw [if_neg hones] at hx
    split at hx
    · split at hx <;> cases hx
    · cases hx
  rw [if_pos hones] at hx
  have hzero : fractionOf (singleBits x) = 0 := by
    by_contra hzero
    rw [if_neg hzero] at hx
    cases hx
  rw [if_pos hzero] at hx
  have hsign : signOf (singleBits x) = .positive := by
    injection hx
  have hequal : ((x.toBits.toUInt64 >>> 23) &&& 0xFF) = 0xFF := by
    rw [← UInt64.toNat_inj, toNat_exponent, hones]
    rfl
  have hfraction : (x.toBits.toUInt64 &&& 0x7FFFFF) = 0 := by
    rw [← UInt64.toNat_inj, toNat_fraction, hzero]
    rfl
  have hpositive : ¬(x.toBits.toUInt64 >>> 31 != 0) = true := by
    rw [negative_iff, hsign]
    exact Sign.noConfusion
  simp only [widen, hequal, hfraction, if_neg hpositive]
  rfl

/-! ## Kinds -/

/-- A single-precision number is not below zero if it is a number and has no negative sign, unless
    it is a zero. -/
theorem single_zero_le_iff : 0 ≤ x ↔ x.isNaN = false ∧ Rising x.toModel.unpack :=
  decide_eq_true_iff.trans Precision.zero_le_iff

theorem single_beq_zero_iff (hx : x.isFinite = true) :
    (x == 0) = true ↔ Precision.value x.toModel.unpack = 0 :=
  (value_eq_zero_iff hx).symm

/-- What is not below zero and not finite is infinite, and so is what it goes up to. -/
theorem beyond_widen (hx : 0 ≤ x) (hfinite : x.isFinite = false) :
    Beyond (widen x).toModel.unpack := by
  have hfinite : x.toModel.unpack.isFinite = false := hfinite
  obtain ⟨hnumber, hrising⟩ := single_zero_le_iff.1 hx
  have hnumber : x.toModel.unpack.isNaN = false := hnumber
  obtain h | h := (Beyond.mk hfinite hrising).eq_or
  · rw [unpack_widen_infinity h]
    exact beyond_infinity
  · rw [h] at hnumber
    cases hnumber

theorem rising_widen (hx : 0 ≤ x) : Rising (widen x).toModel.unpack := by
  cases hfinite : x.isFinite with
  | true =>
    obtain ⟨hwithin, hvalue⟩ := value_widen hfinite
    refine rising_of_value_nonneg hwithin.isFinite ?_
    rw [← Double.value, hvalue]
    exact value_nonneg_of_rising (single_zero_le_iff.1 hx).2
  | false => exact (beyond_widen hx hfinite).rising

/-! ## Narrowing -/

/-- What is not below zero goes down to what is not either. -/
theorem zero_le_narrow {y : Float} (hy : 0 ≤ y) : 0 ≤ narrow y := by
  obtain ⟨hnumber, hrising⟩ := zero_le_iff.1 hy
  have hnumber : y.toModel.unpack.isNaN = false := hnumber
  obtain ⟨r, hr, hkind⟩ : ∃ r, narrow y = .ofModel (.pack r) ∧ r.isNaN = false ∧ Rising r := by
    rw [narrow]
    obtain h | h | ⟨s, h⟩ | ⟨m, e, hm, h⟩ := hrising.eq_or <;> rw [h] at hnumber ⊢
    · exact ⟨_, rfl, rfl, rfl⟩
    · cases hnumber
    · exact ⟨_, rfl, rfl, trivial⟩
    · exact ⟨_, rfl, isNaN_roundWithAccuracy, rising_roundWithAccuracy⟩
  have hnan : (narrow y).isNaN = (narrow y).toModel.unpack.isNaN := rfl
  have hunpack : (narrow y).toModel.unpack =
      UnpackedFloat.unpack .binary32 (UnpackedFloat.pack .binary32 r) := by
    rw [hr]
    rfl
  rw [single_zero_le_iff, hnan, hunpack, isNaN_unpack_pack]
  exact ⟨hkind.1, hkind.2.unpack_pack⟩

end SchemaMatch

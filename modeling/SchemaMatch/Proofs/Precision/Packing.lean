import Mathlib
import SchemaMatch.Proofs.Precision.Kinds
import SchemaMatch.Proofs.Precision.Operations

/-!
# Packing

A number of a format is held in bits: a sign, a biased exponent and a fraction. Taking it apart is
told from these fields as numbers (`unpack_eq`), and so is packing it again. What comes from bits
has the exponent that the format asks for, which is all that the operations need of it.

* `canonical_unpack`, `abs_value_unpack_lt` and `two_zpow_minExponent_le`: what is in bits has this
  exponent, and lies between the least and the greatest power of two of the format;
* `Rounds.unpack_pack`: a rounded number that is not too great comes back from the bits as it was;
* `isNaN_unpack_pack`, `Rising.unpack_pack` and `Beyond.unpack_pack`: whatever the number, the bits
  keep its kind.

The lemmas on fields that are put together and taken apart again, as `pack_unpack`, are the
library's own, and none of its parts brings them but the whole.
-/

namespace SchemaMatch.Precision

open Float.Model Float.Model.UnpackedFloat

variable {F : Format} {sign : Sign} {m : ℕ} {e : ℤ} {hm : 0 < m}

/-! ## Bit fields -/

section Fields

variable (b : BitVec F.numBits)

theorem toNat_unpackMantissa :
    (unpackMantissa b).toNat = b.toNat % 2 ^ F.mantissaBitsWithoutImplicit := by
  rw [unpackMantissa_def, BitVec.extractLsb'_toNat, Nat.shiftRight_zero]

theorem toNat_unpackExponent :
    (unpackExponent b).toNat =
      b.toNat / 2 ^ F.mantissaBitsWithoutImplicit % 2 ^ F.exponentBits := by
  rw [unpackExponent_def, BitVec.extractLsb'_toNat, Nat.shiftRight_eq_div_pow]

theorem toNat_unpackSign :
    (unpackSign b).toNat =
      b.toNat / 2 ^ (F.mantissaBitsWithoutImplicit + F.exponentBits) % 2 := by
  rw [unpackSign_def, BitVec.extractLsb'_toNat, Nat.shiftRight_eq_div_pow]

/-- The sign of a number in bits. -/
def signOf : Sign := .ofBitVec (unpackSign b)

/-- The mantissa of a number in bits, without the implicit one. -/
def fractionOf : ℕ := b.toNat % 2 ^ F.mantissaBitsWithoutImplicit

/-- The biased exponent of a number in bits. -/
def exponentOf : ℕ := b.toNat / 2 ^ F.mantissaBitsWithoutImplicit % 2 ^ F.exponentBits

/-- The implicit bit is the leading one of the mantissa. -/
theorem toNat_implicit_append {n : ℕ} (v : BitVec n) : (1#1 ++ v).toNat = 2 ^ n + v.toNat := by
  have h := Nat.two_pow_add_eq_or_of_lt v.isLt 1
  rw [mul_one] at h
  rw [BitVec.toNat_append, h, Nat.shiftLeft_eq]
  simp

theorem exponentBias_eq (F : Format) :
    (F.exponentBias : ℤ) = 1 - F.minExponent - F.mantissaBitsWithoutImplicit := by
  have hone : 1 ≤ 2 ^ (F.exponentBits - 1) := Nat.one_le_two_pow
  rw [Format.exponentBias, Format.minExponent, Format.mantissaBits, Nat.cast_sub hone]
  push_cast
  ring

/-- A number taken apart, from the fields of its bits. -/
theorem unpack_eq :
    UnpackedFloat.unpack F b =
      if exponentOf b = 2 ^ F.exponentBits - 1 then
        if fractionOf b = 0 then .infinity (signOf b) else .notANumber
      else if exponentOf b = 0 then
        if h : fractionOf b = 0 then .zero (signOf b)
        else .finite (signOf b) (fractionOf b) F.minExponent (Nat.pos_of_ne_zero h)
      else
        .finite (signOf b) (2 ^ F.mantissaBitsWithoutImplicit + fractionOf b)
          (exponentOf b - 1 + F.minExponent) (by positivity) := by
  have hbias := exponentBias_eq F
  have hexponent : (unpackExponent b).toNat = exponentOf b := toNat_unpackExponent b
  have hmantissa : (unpackMantissa b).toNat = fractionOf b := toNat_unpackMantissa b
  have hones : unpackExponent b = -1#_ ↔ exponentOf b = 2 ^ F.exponentBits - 1 := by
    rw [← BitVec.toNat_inj, hexponent, BitVec.neg_one_eq_allOnes, BitVec.toNat_allOnes]
  have hzero : unpackExponent b = 0#_ ↔ exponentOf b = 0 := by
    rw [← BitVec.toNat_inj, hexponent, BitVec.toNat_ofNat, Nat.zero_mod]
  have hzero' : unpackMantissa b = 0#_ ↔ fractionOf b = 0 := by
    rw [← BitVec.toNat_inj, hmantissa, BitVec.toNat_ofNat, Nat.zero_mod]
  rw [UnpackedFloat.unpack]
  simp only [hones, hzero, hzero', toNat_implicit_append, hexponent, hmantissa]
  split
  · rfl
  · split
    · next h =>
      split
      · rfl
      · rw [h]
        congr 1
        push_cast
        omega
    · congr 1
      omega

/-- An exponent is in place if the mantissa has no more digits than the format has, and no fewer
    unless the exponent is the least one. -/
theorem canonical_finite_iff :
    Canonical F (.finite sign m e hm) ↔ F.minExponent ≤ e ∧ m < 2 ^ F.mantissaBits ∧
      (e = F.minExponent ∨ m.log2 + 1 = F.mantissaBits) := by
  rw [Canonical, Format.targetExponent, totalExponent, ← Nat.log2_lt hm.ne']
  omega

/-- What is taken apart has the exponent that the format asks for. -/
theorem canonical_unpack : Canonical F (UnpackedFloat.unpack F b) := by
  have hlt : fractionOf b < 2 ^ F.mantissaBitsWithoutImplicit := Nat.mod_lt _ (by positivity)
  have hbits : F.mantissaBits = F.mantissaBitsWithoutImplicit + 1 := Nat.add_comm _ _
  have hpow : 2 ^ F.mantissaBits = 2 * 2 ^ F.mantissaBitsWithoutImplicit := by
    rw [hbits, pow_succ']
  rw [unpack_eq]
  split
  · split <;> trivial
  · split
    · split
      · trivial
      · exact canonical_finite_iff.2 ⟨le_rfl, by omega, .inl rfl⟩
    · refine canonical_finite_iff.2 ⟨by omega, by omega, .inr ?_⟩
      rw [hbits, Nat.add_right_cancel_iff, Nat.log2_eq_iff (by positivity), pow_succ]
      omega

/-- Packing undoes taking apart, but for the bits of what is not a number. -/
theorem unpack_pack_unpack (hbits : 2 ≤ F.exponentBits) :
    UnpackedFloat.unpack F (UnpackedFloat.pack F (UnpackedFloat.unpack F b)) =
      UnpackedFloat.unpack F b := by
  rw [pack_unpack b hbits]
  split
  · next hnan =>
    rw [isNaNBits, decide_eq_true_eq] at hnan
    rw [unpack_packedNaN, UnpackedFloat.unpack, if_pos hnan.1, if_neg hnan.2]
  · rfl

/-- All numbers of a format lie below a power of two. -/
theorem abs_value_unpack_lt :
    |value (UnpackedFloat.unpack F b)| < 2 ^ (2 ^ (F.exponentBits - 1) : ℤ) := by
  have hfraction : fractionOf b < 2 ^ F.mantissaBitsWithoutImplicit := Nat.mod_lt _ (by positivity)
  have hexponent : exponentOf b < 2 ^ F.exponentBits := Nat.mod_lt _ (by positivity)
  obtain ⟨top, htop⟩ : ∃ top, top = 2 ^ (F.exponentBits - 1) := ⟨_, rfl⟩
  have hpos : 1 ≤ top := htop ▸ Nat.one_le_two_pow
  have hdouble : 2 ^ F.exponentBits = 2 * top := by
    rw [htop, ← pow_succ', Nat.sub_add_cancel F.he]
  have hcast : (2 ^ (F.exponentBits - 1) : ℤ) = top := by
    rw [htop]
    push_cast
    rfl
  have hmin : F.minExponent = 2 - top - F.mantissaBitsWithoutImplicit := by
    rw [Format.minExponent, Format.mantissaBits, hcast]
    push_cast
    ring
  -- A mantissa below a power of two, and an exponent that leaves room for it.
  have hfinite : ∀ {m n : ℕ} {e : ℤ}, m < 2 ^ n → n + e ≤ top →
      (m : ℝ) * 2 ^ e < 2 ^ (top : ℤ) := by
    intro m n e hm he
    have hm : (m : ℝ) < 2 ^ n := by exact_mod_cast hm
    calc (m : ℝ) * 2 ^ e < 2 ^ n * 2 ^ e := by gcongr
      _ = 2 ^ (n + e : ℤ) := by rw [zpow_add₀ two_ne_zero, zpow_natCast]
      _ ≤ 2 ^ (top : ℤ) := zpow_le_zpow he
  rw [unpack_eq, hcast]
  split
  · split <;> simp only [value, abs_zero] <;> positivity
  · split
    · split
      · simp only [value, abs_zero]
        positivity
      · rw [abs_value_finite]
        exact hfinite hfraction (by omega)
    · rw [abs_value_finite]
      refine hfinite (n := F.mantissaBitsWithoutImplicit + 1) ?_ (by omega)
      rw [pow_succ]
      omega

theorem two_zpow_minExponent_le (h : value (UnpackedFloat.unpack F b) ≠ 0) :
    2 ^ F.minExponent ≤ |value (UnpackedFloat.unpack F b)| := by
  have hcanonical := canonical_unpack b
  cases hunpack : UnpackedFloat.unpack F b with
  | infinity => rw [hunpack] at h; exact absurd rfl h
  | notANumber => rw [hunpack] at h; exact absurd rfl h
  | zero => rw [hunpack] at h; exact absurd rfl h
  | finite s m e hm =>
    rw [hunpack] at hcanonical
    have hle := zpow_le_zpow (canonical_finite_iff.1 hcanonical).1
    have hone : (1 : ℝ) ≤ m := by exact_mod_cast hm
    rw [abs_value_finite]
    exact hle.trans (le_mul_of_one_le_left (by positivity) hone)

end Fields

/-! ## Packing -/

section Packing

variable {E : BitVec F.exponentBits} {M : BitVec F.mantissaBitsWithoutImplicit}

@[simp] theorem signOf_packComponents : signOf (packComponents F sign E M) = sign := by
  rw [signOf, unpackSign_packComponents, Sign.ofBitVec_toBitVec]

@[simp] theorem fractionOf_packComponents : fractionOf (packComponents F sign E M) = M.toNat := by
  rw [fractionOf, ← toNat_unpackMantissa, unpackMantissa_packComponents]

@[simp] theorem exponentOf_packComponents : exponentOf (packComponents F sign E M) = E.toNat := by
  rw [exponentOf, ← toNat_unpackExponent, unpackExponent_packComponents]

/-- A mantissa with all its digits is packed without the first one. -/
theorem unpack_packComponents_of_normal {biased : ℕ} (hm : 0 < m) (hpos : biased ≠ 0)
    (hrange : biased + 1 < 2 ^ F.exponentBits) (hle : 2 ^ F.mantissaBitsWithoutImplicit ≤ m)
    (hlt : m < 2 ^ F.mantissaBits) :
    UnpackedFloat.unpack F (packComponents F sign (.ofNat _ biased) (.ofNat _ m)) =
      .finite sign m (biased - 1 + F.minExponent) hm := by
  have hexponent : biased % 2 ^ F.exponentBits = biased := Nat.mod_eq_of_lt (by omega)
  have hmantissa :
      2 ^ F.mantissaBitsWithoutImplicit + m % 2 ^ F.mantissaBitsWithoutImplicit = m := by
    obtain ⟨rest, rfl⟩ := Nat.exists_eq_add_of_le hle
    rw [Format.mantissaBits, pow_add, pow_one] at hlt
    rw [Nat.add_mod_left, Nat.mod_eq_of_lt (by omega)]
  rw [unpack_eq]
  simp only [signOf_packComponents, fractionOf_packComponents, exponentOf_packComponents,
    BitVec.toNat_ofNat, hexponent, hmantissa]
  rw [if_neg (by omega), if_neg hpos]

/-- A mantissa with fewer digits is packed as it is. -/
theorem unpack_packComponents_of_subnormal (hm : 0 < m)
    (hlt : m < 2 ^ F.mantissaBitsWithoutImplicit) :
    UnpackedFloat.unpack F (packComponents F sign 0#_ (.ofNat _ m)) =
      .finite sign m F.minExponent hm := by
  have hones : 0 ≠ 2 ^ F.exponentBits - 1 := by
    have := Nat.one_lt_two_pow F.he.ne'
    omega
  rw [unpack_eq]
  simp only [signOf_packComponents, fractionOf_packComponents, exponentOf_packComponents,
    BitVec.toNat_ofNat, Nat.zero_mod, Nat.mod_eq_of_lt hlt]
  rw [if_neg hones, if_pos trivial, dif_neg hm.ne']

theorem unpack_pack_finite (h : Canonical F (.finite sign m e hm))
    (hrange : e - F.minExponent + 2 < 2 ^ F.exponentBits) :
    UnpackedFloat.unpack F (UnpackedFloat.pack F (.finite sign m e hm)) = .finite sign m e hm := by
  obtain ⟨hmin, hlt, hdigits⟩ := canonical_finite_iff.1 h
  have hbias := exponentBias_eq F
  obtain ⟨biased, hbiased⟩ : ∃ biased, biased =
      (e + F.exponentBias + F.mantissaBitsWithoutImplicit).toNat := ⟨_, rfl⟩
  have hbiased' : (biased : ℤ) = e - F.minExponent + 1 := by omega
  have hrange' : biased + 1 < 2 ^ F.exponentBits := by
    have : ((biased + 1 : ℕ) : ℤ) < (2 ^ F.exponentBits : ℕ) := by
      push_cast
      omega
    exact_mod_cast this
  have hnormal : m.log2 + 1 = F.mantissaBits ↔ 2 ^ F.mantissaBitsWithoutImplicit ≤ m := by
    rw [← Nat.le_log2 hm.ne', Format.mantissaBits]
    rw [← Nat.log2_lt hm.ne', Format.mantissaBits] at hlt
    omega
  rw [UnpackedFloat.pack, ← hbiased]
  simp only [if_neg (show ¬2 ^ F.exponentBits ≤ biased + 1 by omega)]
  split
  · -- The first digit is implied by the exponent.
    next hlog =>
    rw [unpack_packComponents_of_normal hm (by omega) hrange' (hnormal.1 hlog) hlt]
    congr 1
    omega
  · -- Only the least exponent goes with fewer digits, and it is held as zero.
    next hlog =>
    rw [unpack_packComponents_of_subnormal hm (not_le.1 fun hle => hlog (hnormal.2 hle))]
    congr 1
    exact (hdigits.resolve_right hlog).symm

theorem unpack_pack_infinity (sign : Sign) :
    UnpackedFloat.unpack F (packedInfinity F sign) = .infinity sign := by
  simp [UnpackedFloat.unpack, packedInfinity]

/-- A rounded number below the range of a format is held as it is. -/
theorem Rounds.unpack_pack (hbits : 2 ≤ F.exponentBits) {x : ℝ} {r : UnpackedFloat}
    (h : Rounds F x r) {b : ℤ} (hmin : F.minExponent ≤ b) (hmax : b < 2 ^ (F.exponentBits - 1))
    (hx : |x| < 2 ^ b + 2 ^ (b - F.mantissaBits)) :
    UnpackedFloat.unpack F (UnpackedFloat.pack F r) = r := by
  have hle := h.abs_value_le hmin hx
  have hcanonical := h.canonical
  cases r with
  | infinity => cases h.isFinite
  | notANumber => cases h.isFinite
  | zero sign => exact unpack_packedZero
  | finite sign m e hm =>
    refine unpack_pack_finite hcanonical ?_
    obtain ⟨n, hn⟩ : ∃ n, F.exponentBits = n + 2 := ⟨_, (Nat.sub_add_cancel hbits).symm⟩
    have hpow : (2 : ℤ) ^ F.exponentBits = 2 * 2 ^ (F.exponentBits - 1) := by
      rw [hn, ← pow_succ']
      rfl
    have htwo : (2 : ℤ) ≤ 2 ^ (F.exponentBits - 1) := by
      rw [hn]
      exact le_self_pow₀ one_le_two (by omega)
    obtain ⟨-, -, rfl | hdigits⟩ := canonical_finite_iff.1 hcanonical
    · omega
    · -- The mantissa has all its digits, so that the exponent is far below that of the bound.
      rw [abs_value_finite] at hle
      have hlog := two_zpow_log2_le hm.ne'
      have hlt : (2 : ℝ) ^ (m.log2 + e) ≤ 2 ^ b := by
        rw [zpow_add₀ two_ne_zero]
        exact (mul_le_mul_of_nonneg_right hlog (by positivity)).trans hle
      have := (zpow_le_zpow_iff_right₀ one_lt_two).1 hlt
      rw [Format.minExponent]
      omega

theorem isNaN_unpack_packComponents (hE : E.toNat ≠ 2 ^ F.exponentBits - 1) :
    (UnpackedFloat.unpack F (packComponents F sign E M)).isNaN = false := by
  rw [unpack_eq, exponentOf_packComponents, if_neg hE]
  split
  · split <;> rfl
  · rfl

/-- What is a number stays one. -/
theorem isNaN_unpack_pack (f : UnpackedFloat) :
    (UnpackedFloat.unpack F (UnpackedFloat.pack F f)).isNaN = f.isNaN := by
  cases f with
  | infinity s => rw [UnpackedFloat.pack, unpack_pack_infinity]
  | notANumber => rw [UnpackedFloat.pack, unpack_packedNaN]
  | zero s => rw [UnpackedFloat.pack, unpack_packedZero]
  | finite s m e hm =>
    have hbits := Nat.one_lt_two_pow F.he.ne'
    rw [UnpackedFloat.pack]
    split
    · rw [unpack_pack_infinity]
      rfl
    · next hrange =>
      split
      · refine isNaN_unpack_packComponents ?_
        rw [BitVec.toNat_ofNat, Nat.mod_eq_of_lt (by omega)]
        omega
      · refine isNaN_unpack_packComponents ?_
        rw [BitVec.toNat_ofNat, Nat.zero_mod]
        omega

theorem rising_unpack_packComponents :
    Rising (UnpackedFloat.unpack F (packComponents F .positive E M)) := by
  rw [unpack_eq, signOf_packComponents]
  split
  · split
    · rfl
    · trivial
  · split
    · split
      · trivial
      · rfl
    · rfl

theorem Rising.unpack_pack {f : UnpackedFloat} (h : Rising f) :
    Rising (UnpackedFloat.unpack F (UnpackedFloat.pack F f)) := by
  cases f with
  | infinity s => rwa [UnpackedFloat.pack, unpack_pack_infinity]
  | notANumber => rwa [UnpackedFloat.pack, unpack_packedNaN]
  | zero s => rwa [UnpackedFloat.pack, unpack_packedZero]
  | finite s m e hm =>
    obtain rfl : s = .positive := h
    rw [UnpackedFloat.pack]
    split
    · exact rising_unpack_packComponents
    · split <;> exact rising_unpack_packComponents

theorem Beyond.unpack_pack {f : UnpackedFloat} (h : Beyond f) :
    Beyond (UnpackedFloat.unpack F (UnpackedFloat.pack F f)) := by
  obtain rfl | rfl := h.eq_or
  · rw [UnpackedFloat.pack, unpack_pack_infinity]
    exact beyond_infinity
  · rw [UnpackedFloat.pack, unpack_packedNaN]
    exact beyond_notANumber

end Packing

end SchemaMatch.Precision

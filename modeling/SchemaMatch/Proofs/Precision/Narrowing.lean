import SchemaMatch.Proofs.Precision.Whole

/-!
# Whole numbers that go down in two steps

A number that is rounded to double precision, and then to single precision, may be rounded up or
down twice, and end further off than the nearest one. There is only one rounding if double precision
holds the number as it is: what a mantissa and an exponent are rounded to depends on the number that
they stand for, and not on how they share it out (`round_eq_of_eq`). So it is for whole numbers of
at most 53 binary digits (`narrow_doubleOfInt`).
-/

namespace SchemaMatch

open Float.Model Float.Model.UnpackedFloat

namespace Precision

variable {F : Format}

/-- An extended mantissa is determined by the number it stands for. -/
theorem Represents.unique {em em' : ExtendedMantissa} {v : ℝ} (h : Represents em v)
    (h' : Represents em' v) : em = em' := by
  have hmantissa : em.mantissa = em'.mantissa := by
    have hlt : (em.mantissa : ℝ) < em'.mantissa + 1 := h.le.trans_lt h'.lt
    have hlt' : (em'.mantissa : ℝ) < em.mantissa + 1 := h'.le.trans_lt h.lt
    have := Nat.lt_succ_iff.1 (by exact_mod_cast hlt)
    have := Nat.lt_succ_iff.1 (by exact_mod_cast hlt')
    omega
  obtain ⟨m, round, sticky⟩ := em
  obtain ⟨m', round', sticky'⟩ := em'
  obtain rfl : m = m' := hmantissa
  -- With one mantissa, different residual bits stand for different parts of the unit.
  cases round <;> cases sticky <;> cases round' <;> cases sticky' <;>
    simp only [Represents] at h h' <;> first | rfl | linarith

/-- Before a mantissa is rounded, it is brought to the exponent that the format asks for. -/
theorem exists_shift_decreaseExponent {m : ℕ} (hm : m ≠ 0) (e : ℤ) :
    let t := F.targetExponent (totalExponent m e)
    ∃ em v, shiftToTargetExponent F (decreaseExponent m e t).1 (decreaseExponent m e t).2 .exact =
        (em, t) ∧ Represents em v ∧ v * 2 ^ t = m * 2 ^ e := by
  intro t
  have hexponent := decreaseExponent_snd m e t
  have htotal := totalExponent_decreaseExponent hm e t
  obtain ⟨em, v, hshift, hv, hscale⟩ :=
    exists_shiftToTargetExponent (F := F) (Represents.exact (decreaseExponent m e t).1)
      (by rw [htotal, hexponent]; exact min_le_right _ _)
  rw [htotal] at hshift hscale
  exact ⟨em, v, hshift, hv, hscale.trans (decreaseExponent_fst m e t)⟩

/-- Rounding depends on the number alone. -/
theorem round_eq_of_eq (sign : Sign) {m m' : ℕ} {e e' : ℤ} (hm : 0 < m) (hm' : 0 < m')
    (h : (m : ℝ) * 2 ^ e = m' * 2 ^ e') :
    UnpackedFloat.round F sign m e = UnpackedFloat.round F sign m' e' := by
  obtain ⟨em, v, hshift, hv, hscale⟩ := exists_shift_decreaseExponent (F := F) hm.ne' e
  obtain ⟨em', v', hshift', hv', hscale'⟩ := exists_shift_decreaseExponent (F := F) hm'.ne' e'
  rw [← totalExponent_eq_of_eq hm hm' h] at hshift' hscale'
  have hpos : (0 : ℝ) < 2 ^ F.targetExponent (totalExponent m e) := by positivity
  obtain rfl : v = v' := mul_right_cancel₀ hpos.ne' (hscale.trans (h.trans hscale'.symm))
  obtain rfl : em = em' := hv.unique hv'
  simp only [UnpackedFloat.round, roundWithAccuracy, ← totalExponent_eq_of_eq hm hm' h, hshift,
    hshift']

end Precision

open Precision

variable {n : ℕ}

/-- What a double-precision number goes down to if it stands for a whole number. -/
theorem unpack_narrow {x : Float} (hn : 0 < n) (hlt : n < 2 ^ 64) (s : Sign)
    (hx : Double.value x = (s.apply 1 : ℤ) * n) :
    (narrow x).toModel.unpack = UnpackedFloat.round .binary32 s n 0 := by
  have hwhole : Double.value x = value (.finite s n 0 hn) := by
    rw [hx, value, cast_apply s n, zpow_zero, mul_one]
  have hpos : (0 : ℝ) < n := by exact_mod_cast hn
  have hne : Double.value x ≠ 0 := by
    rw [← abs_pos, hwhole, abs_value_finite, zpow_zero, mul_one]
    exact hpos
  rw [Double.value] at hwhole hne
  -- Whatever is not finite stands for zero.
  cases hx : x.toModel.unpack with
  | infinity => exact absurd (by rw [hx]; rfl) hne
  | notANumber => exact absurd (by rw [hx]; rfl) hne
  | zero => exact absurd (by rw [hx]; rfl) hne
  | finite s' m e hm =>
    have hunpack : (narrow x).toModel.unpack = UnpackedFloat.unpack .binary32
        (UnpackedFloat.pack .binary32 (UnpackedFloat.round .binary32 s' m e)) := by
      rw [narrow, hx]
      rfl
    rw [hx] at hwhole
    obtain rfl := sign_eq_of_value_eq hwhole
    have habs := congrArg (|·|) hwhole
    simp only [abs_value_finite] at habs
    rw [hunpack, ← unpack_pack_round hn hlt, ← round_eq_of_eq s' hm hn habs]

/-- Double precision holds whole numbers of at most 53 digits as they are. -/
theorem value_doubleOfInt (hn : 0 < n) (hlt : n < 2 ^ 53) (s : Sign) :
    Double.value (doubleOfInt (s.apply n)) = (s.apply 1 : ℤ) * n := by
  have hnat : n.toUInt64.toNat = n := UInt64.toNat_ofNat_of_lt' (hlt.trans (by decide))
  obtain ⟨hvalue, hwithin⟩ :=
    Double.value_toFloat (n := n.toUInt64) (b := 53) (by decide) (by rwa [hnat])
  rw [hnat] at hvalue
  cases s with
  | positive =>
    have hdouble : doubleOfInt n = n.toUInt64.toFloat := by
      simp only [doubleOfInt, Int.natAbs_natCast, if_neg (not_lt.2 (Int.natCast_nonneg n))]
    rw [Sign.apply, hdouble, hvalue, Sign.apply, Int.cast_one, one_mul]
  | negative =>
    have hneg : -(n : ℤ) < 0 := by omega
    have hdouble : doubleOfInt (-n) = -n.toUInt64.toFloat := by
      simp only [doubleOfInt, Int.natAbs_neg, Int.natAbs_natCast, if_pos hneg]
    rw [Sign.apply, hdouble, (hwithin.neg (by decide) (by decide)).1, hvalue, Sign.apply]
    simp

/-- Whole numbers of at most 53 digits are rounded once. -/
theorem narrow_doubleOfInt {k : ℤ} (hk : k.natAbs < 2 ^ 53) :
    narrow (doubleOfInt k) = singleOfInt k := by
  have hlt : k.natAbs < 2 ^ 64 := hk.trans (by decide)
  rcases Nat.eq_zero_or_pos k.natAbs with hzero | hpos
  · rw [Int.natAbs_eq_zero.1 hzero]
    decide
  obtain ⟨s, hs⟩ : ∃ s : Sign, k = s.apply k.natAbs := by
    rcases k.natAbs_eq with hs | hs
    · exact ⟨.positive, hs⟩
    · exact ⟨.negative, hs⟩
  rw [hs]
  refine single_eq_of_unpack_eq ?_
  rw [unpack_narrow hpos hlt s (value_doubleOfInt hpos hk s), unpack_singleOfInt hpos hlt]

end SchemaMatch

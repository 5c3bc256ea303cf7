import Mathlib.Algebra.Order.Field.Power
import Mathlib.Data.Nat.Log
import Mathlib.Data.Real.Basic
import Mathlib.Tactic.FieldSimp
import Mathlib.Tactic.Linarith
import Mathlib.Tactic.Positivity
import Mathlib.Tactic.Ring

/-!
# Rounding

The operations on numbers taken apart compute a mantissa that may lack what came after its last
digit, of which they keep whether it was zero, and on which side of the middle it lay
(`Represents`). What they make of it is nearest to the exact result (`Rounds`) among the multiples
of the power of two that is the spacing of the numbers of the format there (`IsSpacing`).

* `rounds_roundWithAccuracy`: rounding a mantissa that has enough digits gives a nearest number;
* `Rounds.abs_value_le` and `Rounds.two_zpow_le`: rounding leaves no interval between powers of two,
  not even from a little above it;
* `Rounds.value_eq`: a number that a mantissa can hold is not changed by rounding;
* `Rounds.abs_value_le_abs_value` and `Rounds.abs_sub_le`: rounding goes beyond no number of the
  format, and moves a number by no more than half of a unit.

The greatest exponent is not held to here: what is out of range becomes infinite when it is packed.
-/

namespace SchemaMatch.Precision

open Float.Model Float.Model.UnpackedFloat

variable {F : Format}

/-! ## Extended mantissas -/

/-- Whether an extended mantissa stands for a real number: the number is the mantissa, below, at or
    above the middle between it and the next one, as the two residual bits tell. -/
def Represents : ExtendedMantissa → ℝ → Prop
  | ⟨m, false, false⟩, v => v = m
  | ⟨m, false, true⟩, v => m < v ∧ v < m + 1 / 2
  | ⟨m, true, false⟩, v => v = m + 1 / 2
  | ⟨m, true, true⟩, v => m + 1 / 2 < v ∧ v < m + 1

namespace Represents

variable {em : ExtendedMantissa} {v : ℝ}

theorem shiftRightOne (h : Represents em v) : Represents em.shiftRightOne (v / 2) := by
  obtain ⟨m, round, sticky⟩ := em
  obtain ⟨q, rfl | rfl⟩ := Nat.even_or_odd' m <;> cases round <;> cases sticky <;>
    simp only [Represents, ExtendedMantissa.shiftRightOne, Nat.mul_mod_right,
      Nat.mul_add_mod, Nat.mul_div_right _ two_pos, Nat.mul_add_div two_pos, bne_self_eq_false,
      Bool.or_false, Bool.or_true, Nat.reduceMod, Nat.reduceDiv, Nat.reduceBneDiff,
      add_zero] at h ⊢ <;>
    push_cast at h <;>
    first | linarith | constructor <;> linarith

theorem shiftRight (h : Represents em v) (n : ℕ) : Represents (em >>> n) (v / 2 ^ n) := by
  change Represents (n.repeat ExtendedMantissa.shiftRightOne em) _
  induction n with
  | zero => simpa [Nat.repeat] using h
  | succ n ih =>
    rw [Nat.repeat, pow_succ, ← div_div]
    exact ih.shiftRightOne

theorem le (h : Represents em v) : em.mantissa ≤ v := by
  obtain ⟨m, round, sticky⟩ := em
  cases round <;> cases sticky <;> simp only [Represents] at h ⊢ <;> linarith

theorem lt (h : Represents em v) : v < em.mantissa + 1 := by
  obtain ⟨m, round, sticky⟩ := em
  cases round <;> cases sticky <;> simp only [Represents] at h ⊢ <;> linarith

theorem abs_sub_le (h : Represents em v) : |(em.roundedMantissa : ℝ) - v| ≤ 1 / 2 := by
  obtain ⟨m, round, sticky⟩ := em
  rw [abs_le]
  cases round <;> cases sticky <;>
    simp only [Represents, ExtendedMantissa.roundedMantissa, ExtendedMantissa.accuracy,
      Accuracy.roundToNearestEven] at h ⊢
  · constructor <;> linarith
  · constructor <;> linarith
  · -- Half-way
    rcases Nat.mod_two_eq_zero_or_one m with hm | hm <;> rw [hm] <;> push_cast <;>
      constructor <;> linarith
  · push_cast
    constructor <;> linarith

theorem exact (m : ℕ) : Represents (.ofMantissaAndAccuracy m .exact) m := rfl

end Represents

/-! ## Values -/

/-- The real number that a number taken apart stands for: zero if it is not finite. -/
noncomputable def value : UnpackedFloat → ℝ
  | .finite sign mantissa exponent _ => (sign.apply mantissa : ℤ) * 2 ^ exponent
  | _ => 0

theorem value_signedZero (sign : Sign) : value (.zero sign) = 0 := rfl

theorem value_finite (sign : Sign) (m : ℕ) (e : ℤ) (hm : 0 < m) :
    value (.finite sign m e hm) = (sign.apply m : ℤ) * 2 ^ e := rfl

/-- Whether the exponent of a number taken apart is the one that a format asks for. -/
def Canonical (F : Format) : UnpackedFloat → Prop
  | .finite _ mantissa exponent _ =>
    exponent = F.targetExponent (totalExponent mantissa exponent)
  | _ => True

theorem canonical_finite {sign : Sign} {m : ℕ} {e : ℤ} {hm : 0 < m} :
    Canonical F (.finite sign m e hm) ↔ e = F.targetExponent (totalExponent m e) := .rfl

/-! ## Spacing -/

/-- Whether the numbers of a format around a positive real number are the multiples of a power of
    two: in units of it, the number has at most as many digits as a mantissa, and no fewer unless
    the power is the least one. -/
structure IsSpacing (F : Format) (t : ℤ) (x : ℝ) : Prop where
  min_le : F.minExponent ≤ t
  lt : x < 2 ^ (t + F.mantissaBits)
  eq_min_or_le : t = F.minExponent ∨ 2 ^ (t + F.mantissaBits - 1) ≤ x

theorem min_le_targetExponent (F : Format) (total : ℤ) :
    F.minExponent ≤ F.targetExponent total :=
  le_max_right _ _

theorem zpow_le_zpow {a b : ℤ} (h : a ≤ b) : (2 : ℝ) ^ a ≤ 2 ^ b :=
  zpow_le_zpow_right₀ one_le_two h

theorem zpow_lt_zpow_iff {a b : ℤ} : (2 : ℝ) ^ a < 2 ^ b ↔ a < b :=
  zpow_lt_zpow_iff_right₀ one_lt_two

/-- A positive mantissa lies between two powers of two. -/
theorem two_zpow_log2_le {m : ℕ} (hm : m ≠ 0) : (2 : ℝ) ^ (m.log2 : ℤ) ≤ m := by
  rw [zpow_natCast]
  exact_mod_cast Nat.log2_self_le hm

theorem lt_two_zpow_log2 (m : ℕ) : (m : ℝ) + 1 ≤ 2 ^ (m.log2 + 1 : ℤ) := by
  have h : m + 1 ≤ 2 ^ (m.log2 + 1) := Nat.lt_log2_self
  exact_mod_cast h

theorem isSpacing_targetExponent {m : ℕ} (hm : m ≠ 0) {e : ℤ} {x : ℝ} (hle : m * 2 ^ e ≤ x)
    (hlt : x < (m + 1) * 2 ^ e) :
    IsSpacing F (F.targetExponent (totalExponent m e)) x where
  min_le := min_le_targetExponent _ _
  lt := by
    have htotal : totalExponent m e - F.mantissaBits ≤
        F.targetExponent (totalExponent m e) := le_max_left _ _
    calc x < (m + 1) * 2 ^ e := hlt
      _ ≤ 2 ^ (m.log2 + 1 : ℤ) * 2 ^ e := by gcongr; exact lt_two_zpow_log2 m
      _ = 2 ^ (totalExponent m e) := by rw [← zpow_add₀ two_ne_zero, totalExponent]
      _ ≤ _ := zpow_le_zpow (by omega)
  eq_min_or_le := by
    rw [Format.targetExponent]
    rcases max_choice (totalExponent m e - F.mantissaBits) F.minExponent with h | h
    · right
      rw [h]
      calc (2 : ℝ) ^ (totalExponent m e - F.mantissaBits + F.mantissaBits - 1)
          = 2 ^ (m.log2 : ℤ) * 2 ^ e := by
            rw [← zpow_add₀ two_ne_zero, totalExponent]
            congr 1
            ring
        _ ≤ m * 2 ^ e := by gcongr; exact two_zpow_log2_le hm
        _ ≤ x := hle
    · exact .inl h

/-! ## Rounding -/

/-- Whether a number taken apart is nearest to a real number among those of a format, as far as the
    greatest exponent is not held to. -/
structure Rounds (F : Format) (x : ℝ) (r : UnpackedFloat) : Prop where
  isFinite : r.isFinite = true
  canonical : Canonical F r
  nearest : ∃ (k t : ℤ), IsSpacing F t |x| ∧ value r = k * 2 ^ t ∧ |value r - x| ≤ 2 ^ t / 2

/-- A mantissa that has its digits is not shifted. -/
theorem shiftToTargetExponent_of_lt {k : ℕ} {t : ℤ} (hk : k < 2 ^ F.mantissaBits)
    (hmin : F.minExponent ≤ t) (hdigits : t = F.minExponent ∨ 2 ^ (F.mantissaBits - 1) ≤ k) :
    shiftToTargetExponent F k t .exact = (⟨k, false, false⟩, t) ∧
      (k ≠ 0 → t = F.targetExponent (totalExponent k t)) := by
  have hbits : 1 ≤ F.mantissaBits := Nat.le_add_right 1 _
  have hlog : k.log2 + 1 ≤ F.mantissaBits := by
    rcases eq_or_ne k 0 with rfl | hne
    · rwa [Nat.log2_zero]
    · exact (Nat.log2_lt hne).2 hk
  have htarget : F.targetExponent (totalExponent k t) ≤ t := by
    rw [Format.targetExponent, totalExponent]
    exact max_le (by omega) hmin
  refine ⟨?_, fun hne => le_antisymm ?_ htarget⟩
  · rw [shiftToTargetExponent, shiftToExponent, Int.toNat_of_nonpos (by omega)]
    simp only [Nat.cast_zero, add_zero]
    rfl
  · rw [Format.targetExponent, totalExponent]
    rcases hdigits with rfl | hdigits
    · exact le_max_right _ _
    · have := (Nat.le_log2 hne).2 hdigits
      exact le_max_of_le_left (by omega)

/-- A mantissa that just overflowed is shifted once, which cuts off a zero. -/
theorem shiftToTargetExponent_two_pow {t : ℤ} (hmin : F.minExponent ≤ t) :
    shiftToTargetExponent F (2 ^ F.mantissaBits) t .exact =
        (⟨2 ^ (F.mantissaBits - 1), false, false⟩, t + 1) ∧
      t + 1 = F.targetExponent (totalExponent (2 ^ (F.mantissaBits - 1)) (t + 1)) := by
  obtain ⟨p, hp⟩ : ∃ p, F.mantissaBits = p + 1 := ⟨_, Nat.add_comm _ _⟩
  rw [hp, Nat.add_sub_cancel]
  constructor
  · have htarget : F.targetExponent (totalExponent (2 ^ (p + 1)) t) = t + 1 := by
      rw [Format.targetExponent, totalExponent, Nat.log2_two_pow, max_eq_left (by omega)]
      omega
    have hone : (t + 1 - t).toNat = 1 := by omega
    have hshift : ∀ em : ExtendedMantissa, em >>> 1 = em.shiftRightOne := fun _ => rfl
    rw [shiftToTargetExponent, shiftToExponent, htarget]
    simp only [hone]
    rw [hshift, pow_succ]
    simp [ExtendedMantissa.shiftRightOne, ExtendedMantissa.ofMantissaAndAccuracy]
  · rw [Format.targetExponent, totalExponent, Nat.log2_two_pow, hp, max_eq_left (by omega)]
    push_cast
    ring

/-- Nothing is cut off from a rounded mantissa, even if it just overflowed. -/
theorem shiftToTargetExponent_exact {k : ℕ} {t : ℤ} (hk : k ≤ 2 ^ F.mantissaBits)
    (hmin : F.minExponent ≤ t) (hdigits : t = F.minExponent ∨ 2 ^ (F.mantissaBits - 1) ≤ k) :
    ∃ m e, shiftToTargetExponent F k t .exact = (⟨m, false, false⟩, e) ∧
      (m : ℝ) * 2 ^ e = k * 2 ^ t ∧
      (m ≠ 0 → e = F.targetExponent (totalExponent m e)) := by
  rcases lt_or_eq_of_le hk with hk | rfl
  · obtain ⟨hshift, htarget⟩ := shiftToTargetExponent_of_lt hk hmin hdigits
    exact ⟨k, t, hshift, rfl, htarget⟩
  · obtain ⟨hshift, htarget⟩ := shiftToTargetExponent_two_pow hmin
    refine ⟨_, _, hshift, ?_, fun _ => htarget⟩
    obtain ⟨p, hp⟩ : ∃ p, F.mantissaBits = p + 1 := ⟨_, Nat.add_comm _ _⟩
    rw [hp, Nat.add_sub_cancel, zpow_add_one₀ two_ne_zero]
    push_cast
    ring

theorem cast_apply (sign : Sign) (m : ℕ) :
    ((sign.apply m : ℤ) : ℝ) = (sign.apply 1 : ℤ) * m := by
  cases sign <;> simp [Sign.apply]

theorem abs_apply_one (sign : Sign) : |((sign.apply 1 : ℤ) : ℝ)| = 1 := by
  cases sign <;> simp [Sign.apply]

theorem abs_value_finite (sign : Sign) (m : ℕ) (e : ℤ) (hm : 0 < m) :
    |value (.finite sign m e hm)| = m * 2 ^ e := by
  rw [value_finite, cast_apply, abs_mul, abs_mul, abs_apply_one, one_mul,
    abs_of_pos (by positivity), abs_of_pos (by positivity)]

/-- The number with some mantissa, which is a zero if the mantissa is. -/
def ofMantissa (sign : Sign) (m : ℕ) (e : ℤ) : UnpackedFloat :=
  if h : m = 0 then .zero sign else .finite sign m e (Nat.pos_of_ne_zero h)

theorem ofMantissa_zero (sign : Sign) (e : ℤ) : ofMantissa sign 0 e = .zero sign := rfl

theorem ofMantissa_pos (sign : Sign) {m : ℕ} (hm : 0 < m) (e : ℤ) :
    ofMantissa sign m e = .finite sign m e hm := dif_neg hm.ne'

theorem isFinite_ofMantissa (sign : Sign) (m : ℕ) (e : ℤ) :
    (ofMantissa sign m e).isFinite = true := by
  rcases m.eq_zero_or_pos with rfl | hm
  · rfl
  · rw [ofMantissa_pos sign hm]
    rfl

theorem canonical_ofMantissa (sign : Sign) {m : ℕ} {e : ℤ}
    (h : m ≠ 0 → e = F.targetExponent (totalExponent m e)) : Canonical F (ofMantissa sign m e) := by
  rcases m.eq_zero_or_pos with rfl | hm
  · trivial
  · rw [ofMantissa_pos sign hm]
    exact h hm.ne'

theorem value_ofMantissa (sign : Sign) (m : ℕ) (e : ℤ) :
    value (ofMantissa sign m e) = (sign.apply 1 : ℤ) * (m * 2 ^ e) := by
  rcases m.eq_zero_or_pos with rfl | hm
  · rw [ofMantissa_zero, value_signedZero, Nat.cast_zero, zero_mul, mul_zero]
  · rw [ofMantissa_pos sign hm, value_finite, cast_apply, mul_assoc]

/-- To round is to shift, to take the nearest mantissa, and to shift once more. -/
theorem roundWithAccuracy_eq (sign : Sign) (m : ℕ) (e : ℤ) (accuracy : Accuracy) :
    roundWithAccuracy F sign m e accuracy =
      let (em, t) := shiftToTargetExponent F m e accuracy
      let (em', t') := shiftToTargetExponent F em.roundedMantissa t .exact
      ofMantissa sign em'.mantissa t' := rfl

theorem mantissa_ofMantissaAndAccuracy (m : ℕ) (accuracy : Accuracy) :
    (ExtendedMantissa.ofMantissaAndAccuracy m accuracy).mantissa = m := by
  rcases accuracy with _ | (_ | _ | _) <;> rfl

/-- Shifting changes the unit, and not the number. -/
theorem exists_shiftToTargetExponent {m : ℕ} {e : ℤ} {accuracy : Accuracy} {v : ℝ}
    (hv : Represents (.ofMantissaAndAccuracy m accuracy) v)
    (he : e ≤ F.targetExponent (totalExponent m e)) :
    ∃ em v', shiftToTargetExponent F m e accuracy =
        (em, F.targetExponent (totalExponent m e)) ∧
      Represents em v' ∧ v' * 2 ^ F.targetExponent (totalExponent m e) = v * 2 ^ e := by
  obtain ⟨n, hn⟩ := Int.le.dest he
  refine ⟨_, _, ?_, hv.shiftRight n, ?_⟩
  · rw [shiftToTargetExponent, shiftToExponent, ← hn]
    simp only [add_sub_cancel_left, Int.toNat_natCast]
  · rw [← hn, zpow_add₀ two_ne_zero, zpow_natCast]
    field_simp

/-- In units of the spacing, a number has as many digits as a mantissa. -/
theorem IsSpacing.digits {t : ℤ} {v : ℝ} (h : IsSpacing F t (v * 2 ^ t)) :
    v < 2 ^ F.mantissaBits ∧ (t = F.minExponent ∨ 2 ^ (F.mantissaBits - 1) ≤ v) := by
  have hpos : (0 : ℝ) < 2 ^ t := by positivity
  have hlt := h.lt
  have hle := h.eq_min_or_le
  obtain ⟨p, hp⟩ : ∃ p, F.mantissaBits = p + 1 := ⟨_, Nat.add_comm _ _⟩
  rw [add_comm, zpow_add₀ two_ne_zero, zpow_natCast, mul_lt_mul_iff_left₀ hpos] at hlt
  rw [hp, Nat.cast_succ, ← add_assoc, add_sub_cancel_right, add_comm, zpow_add₀ two_ne_zero,
    zpow_natCast, mul_le_mul_iff_left₀ hpos] at hle
  rw [hp, Nat.add_sub_cancel]
  exact ⟨hp ▸ hlt, hle⟩

/-- So has the nearest mantissa, unless it just overflowed. -/
theorem Represents.digits {em : ExtendedMantissa} {t : ℤ} {v : ℝ} (hv : Represents em v)
    (h : IsSpacing F t (v * 2 ^ t)) :
    em.roundedMantissa ≤ 2 ^ F.mantissaBits ∧
      (t = F.minExponent ∨ 2 ^ (F.mantissaBits - 1) ≤ em.roundedMantissa) := by
  have hround := abs_le.1 hv.abs_sub_le
  obtain ⟨hlt, hle⟩ := h.digits
  refine ⟨?_, hle.imp_right fun hle => ?_⟩
  · have hlt : (em.roundedMantissa : ℝ) < 2 ^ F.mantissaBits + 1 := by linarith
    exact Nat.lt_succ_iff.1 (by exact_mod_cast hlt)
  · have hlt : (2 ^ (F.mantissaBits - 1) : ℝ) < em.roundedMantissa + 1 := by linarith
    exact Nat.lt_succ_iff.1 (by exact_mod_cast hlt)

/-- A mantissa that was shifted to its exponent is rounded, and shifted once more if it
    overflows. -/
theorem roundWithAccuracy_of_shift (sign : Sign) {m : ℕ} {e t : ℤ} {accuracy : Accuracy}
    {em : ExtendedMantissa} (hshift : shiftToTargetExponent F m e accuracy = (em, t))
    (hle : em.roundedMantissa ≤ 2 ^ F.mantissaBits) (hmin : F.minExponent ≤ t)
    (hdigits : t = F.minExponent ∨ 2 ^ (F.mantissaBits - 1) ≤ em.roundedMantissa) :
    (roundWithAccuracy F sign m e accuracy).isFinite = true ∧
      Canonical F (roundWithAccuracy F sign m e accuracy) ∧
      value (roundWithAccuracy F sign m e accuracy) =
        (sign.apply 1 : ℤ) * (em.roundedMantissa * 2 ^ t) := by
  obtain ⟨m', e', hexact, hvalue, hcanonical⟩ := shiftToTargetExponent_exact hle hmin hdigits
  rw [roundWithAccuracy_eq, hshift]
  simp only [hexact]
  refine ⟨isFinite_ofMantissa _ _ _, canonical_ofMantissa sign hcanonical, ?_⟩
  rw [value_ofMantissa, hvalue]

/-- What is rounded with enough digits becomes a nearest number. -/
theorem rounds_roundWithAccuracy (sign : Sign) {m : ℕ} {e : ℤ} {accuracy : Accuracy} {v : ℝ}
    (hm : m ≠ 0) (hv : Represents (.ofMantissaAndAccuracy m accuracy) v)
    (he : e ≤ F.targetExponent (totalExponent m e)) :
    Rounds F ((sign.apply 1 : ℤ) * (v * 2 ^ e)) (roundWithAccuracy F sign m e accuracy) := by
  have hpos : (0 : ℝ) < 2 ^ e := by positivity
  have hle := hv.le
  have hlt := hv.lt
  rw [mantissa_ofMantissaAndAccuracy] at hle hlt
  have hspacing := isSpacing_targetExponent (F := F) hm
    (mul_le_mul_of_nonneg_right hle hpos.le) (mul_lt_mul_of_pos_right hlt hpos)
  have habs : |((sign.apply 1 : ℤ) : ℝ) * (v * 2 ^ e)| = v * 2 ^ e := by
    rw [abs_mul, abs_apply_one, one_mul, abs_of_pos]
    exact mul_pos (lt_of_lt_of_le (by positivity) hle) hpos
  obtain ⟨em, v', hshift, hv', hscale⟩ := exists_shiftToTargetExponent hv he
  obtain ⟨t, ht⟩ : ∃ t, t = F.targetExponent (totalExponent m e) := ⟨_, rfl⟩
  rw [← ht] at hspacing hshift hscale
  rw [← hscale] at hspacing habs ⊢
  obtain ⟨hdigits, hdigits'⟩ := hv'.digits hspacing
  obtain ⟨hfinite, hcanonical, hresult⟩ :=
    roundWithAccuracy_of_shift sign hshift hdigits hspacing.min_le hdigits'
  refine ⟨hfinite, hcanonical, sign.apply 1 * em.roundedMantissa, t, habs.symm ▸ hspacing, ?_, ?_⟩
  · rw [hresult]
    push_cast
    ring
  · rw [hresult, ← mul_sub, ← sub_mul, abs_mul, abs_apply_one, one_mul, abs_mul,
      abs_of_pos (show (0 : ℝ) < 2 ^ t by positivity)]
    calc |(em.roundedMantissa : ℝ) - v'| * 2 ^ t ≤ 1 / 2 * 2 ^ t := by
          gcongr
          exact hv'.abs_sub_le
      _ = 2 ^ t / 2 := by ring

/-! ## What rounding keeps -/

section Rounds

variable {x : ℝ} {r : UnpackedFloat}

/-- A power of two is a multiple of a smaller one. -/
theorem exists_two_zpow_eq {t b : ℤ} (h : t ≤ b) : ∃ j : ℤ, (2 : ℝ) ^ b = j * 2 ^ t := by
  obtain ⟨n, rfl⟩ := Int.le.dest h
  refine ⟨2 ^ n, ?_⟩
  rw [add_comm, zpow_add₀ two_ne_zero, zpow_natCast]
  push_cast
  rfl

/-- Multiples of a power of two are compared by their factors. -/
theorem le_of_mul_two_zpow_lt {j k t : ℤ} (h : (j : ℝ) * 2 ^ t < (k + 1) * 2 ^ t) : j ≤ k := by
  rw [mul_lt_mul_iff_left₀ (by positivity)] at h
  exact Int.lt_add_one_iff.1 (by exact_mod_cast h)

theorem one_le_mantissaBits (F : Format) : (1 : ℤ) ≤ F.mantissaBits := by
  exact_mod_cast Nat.le_add_right 1 _

/-- A power of two is no narrower than the spacing around what a mantissa can count in units of
    it. -/
theorem IsSpacing.le_of_lt {t b : ℤ} (h : IsSpacing F t x) (hb : F.minExponent ≤ b)
    (hx : x < 2 ^ (b + F.mantissaBits)) : t ≤ b := by
  rcases h.eq_min_or_le with rfl | hle
  · exact hb
  · have := zpow_lt_zpow_iff.1 (hle.trans_lt hx)
    omega

/-- Rounding adds no more than half of the spacing. -/
theorem abs_le_abs_add {v t : ℝ} (h : |v - x| ≤ t / 2) : |v| ≤ |x| + t / 2 := by
  have := abs_sub_abs_le_abs_sub v x
  linarith

/-- Rounding keeps to a power of two, and so does a number that exceeds it by less than half of the
    spacing. -/
theorem Rounds.abs_value_le (h : Rounds F x r) {b : ℤ} (hb : F.minExponent ≤ b)
    (hx : |x| < 2 ^ b + 2 ^ (b - F.mantissaBits)) : |value r| ≤ 2 ^ b := by
  obtain ⟨k, t, hspacing, hk, hnear⟩ := h.nearest
  have hbits := one_le_mantissaBits F
  have ht : t ≤ b := by
    refine hspacing.le_of_lt hb (hx.trans_le ?_)
    have hle := zpow_le_zpow (show b - F.mantissaBits ≤ b by omega)
    calc (2 : ℝ) ^ b + 2 ^ (b - F.mantissaBits) ≤ 2 ^ b + 2 ^ b := by gcongr
      _ = 2 ^ (b + 1) := by rw [zpow_add_one₀ two_ne_zero, mul_two]
      _ ≤ 2 ^ (b + F.mantissaBits) := zpow_le_zpow (by omega)
  obtain ⟨j, hj⟩ := exists_two_zpow_eq ht
  have hpos : (0 : ℝ) < 2 ^ t := by positivity
  -- Either the number is no greater than the power, or its spacing is wider than the excess.
  have hexcess : |x| + 2 ^ t / 2 < 2 ^ b + 2 ^ t := by
    rcases lt_or_ge |x| (2 ^ b) with hlt | hge
    · linarith
    · have hlt := zpow_lt_zpow_iff.1 (hge.trans_lt hspacing.lt)
      have hle := zpow_le_zpow (show b - F.mantissaBits ≤ t - 1 by omega)
      rw [zpow_sub_one₀ two_ne_zero] at hle
      linarith
  have habs := abs_le_abs_add hnear
  rw [hk, abs_mul, abs_of_pos hpos, ← Int.cast_abs] at habs ⊢
  rw [hj] at hexcess ⊢
  have hle : |k| ≤ j := le_of_mul_two_zpow_lt (t := t) (by linarith)
  gcongr

/-- Rounding does not go below a power of two. -/
theorem Rounds.two_zpow_le (h : Rounds F x r) {a : ℤ} (ha : F.minExponent ≤ a)
    (hx : 2 ^ a ≤ x) : 2 ^ a ≤ value r := by
  obtain ⟨k, t, hspacing, hk, hnear⟩ := h.nearest
  have hpos : (0 : ℝ) < 2 ^ t := by positivity
  have hnear := (abs_le.1 hnear).1
  rcases le_or_gt t a with ht | ht
  · obtain ⟨j, hj⟩ := exists_two_zpow_eq ht
    rw [hk] at hnear ⊢
    rw [hj] at hx ⊢
    have hle : j ≤ k := le_of_mul_two_zpow_lt (t := t) (by linarith)
    gcongr
  · -- The spacing is wider than the power, and the number has all its digits.
    have hbits := one_le_mantissaBits F
    have hle := hspacing.eq_min_or_le.resolve_left (by omega)
    rw [abs_of_pos (lt_of_lt_of_le (by positivity) hx)] at hle
    have hone := zpow_le_zpow (show t ≤ t + F.mantissaBits - 1 by omega)
    have htwo := zpow_le_zpow (show a ≤ t - 1 by omega)
    rw [zpow_sub_one₀ two_ne_zero] at htwo
    linarith

theorem Rounds.value_nonneg (h : Rounds F x r) (hx : 0 ≤ x) : 0 ≤ value r := by
  obtain ⟨k, t, -, hk, hnear⟩ := h.nearest
  have hpos : (0 : ℝ) < 2 ^ t := by positivity
  have hnear := (abs_le.1 hnear).1
  rw [hk] at hnear ⊢
  have hle : 0 ≤ k := le_of_mul_two_zpow_lt (t := t) (by push_cast; linarith)
  exact mul_nonneg (by exact_mod_cast hle) hpos.le

/-- A number that a mantissa can hold is not changed by rounding. -/
theorem Rounds.value_eq (h : Rounds F x r) {j u : ℤ} (hx : x = j * 2 ^ u)
    (hj : |j| < 2 ^ F.mantissaBits) (hu : F.minExponent ≤ u) : value r = x := by
  obtain ⟨k, t, hspacing, hk, hnear⟩ := h.nearest
  have hpos : (0 : ℝ) < 2 ^ t := by positivity
  have ht : t ≤ u := by
    refine hspacing.le_of_lt hu ?_
    rw [hx, abs_mul, abs_of_pos (show (0 : ℝ) < 2 ^ u by positivity), add_comm,
      zpow_add₀ two_ne_zero, zpow_natCast, ← Int.cast_abs]
    gcongr
    exact_mod_cast hj
  -- Both are multiples of the spacing, and closer to each other than that.
  obtain ⟨i, hi⟩ := exists_two_zpow_eq ht
  rw [hi, ← mul_assoc] at hx
  rw [hk, hx] at hnear ⊢
  obtain ⟨hge, hle⟩ := abs_le.1 hnear
  have hki : k ≤ j * i := le_of_mul_two_zpow_lt (t := t) (by push_cast; linarith)
  have hik : j * i ≤ k := le_of_mul_two_zpow_lt (t := t) (by push_cast; linarith)
  rw [le_antisymm hki hik]
  push_cast
  rfl

/-- A number of the format is such a multiple. -/
theorem Rounds.exists_value_eq (h : Rounds F (value r) r) :
    ∃ j u : ℤ, value r = j * 2 ^ u ∧ |j| < 2 ^ F.mantissaBits ∧ F.minExponent ≤ u := by
  obtain ⟨j, u, hspacing, hvalue, -⟩ := h.nearest
  refine ⟨j, u, hvalue, ?_, hspacing.min_le⟩
  have hpos : (0 : ℝ) < 2 ^ u := by positivity
  have hlt := hspacing.lt
  rw [hvalue, abs_mul, abs_of_pos hpos, add_comm, zpow_add₀ two_ne_zero, zpow_natCast,
    mul_lt_mul_iff_left₀ hpos] at hlt
  exact_mod_cast hlt

/-- Rounding does not go beyond a number of the format. -/
theorem Rounds.abs_value_le_abs_value {s : UnpackedFloat} (h : Rounds F x r)
    (hs : Rounds F (value s) s) (hx : |x| ≤ |value s|) : |value r| ≤ |value s| := by
  obtain ⟨k, t, hspacing, hk, hnear⟩ := h.nearest
  obtain ⟨j, u, hspacing', hj, -⟩ := hs.nearest
  have hpos : (0 : ℝ) < 2 ^ t := by positivity
  have ht : t ≤ u := hspacing.le_of_lt hspacing'.min_le (hx.trans_lt hspacing'.lt)
  -- Both are multiples of the spacing around the number that is rounded.
  obtain ⟨i, hi⟩ := exists_two_zpow_eq ht
  have habs := abs_le_abs_add hnear
  rw [hi, ← mul_assoc, ← Int.cast_mul] at hj
  rw [hj, abs_mul, abs_of_pos hpos, ← Int.cast_abs] at hx ⊢
  rw [hk, abs_mul, abs_of_pos hpos, ← Int.cast_abs] at habs ⊢
  have hle : |k| ≤ |j * i| := le_of_mul_two_zpow_lt (t := t) (by linarith)
  gcongr

/-- Rounding moves a number by half of a unit at most, if a mantissa can count it in these units. -/
theorem Rounds.abs_sub_le (h : Rounds F x r) {b : ℤ} (hb : F.minExponent ≤ b)
    (hx : |x| < 2 ^ (b + F.mantissaBits)) : |value r - x| ≤ 2 ^ (b - 1) := by
  obtain ⟨k, t, hspacing, -, hnear⟩ := h.nearest
  calc |value r - x| ≤ 2 ^ t / 2 := hnear
    _ ≤ 2 ^ b / 2 := by
      have := zpow_le_zpow (hspacing.le_of_lt hb hx)
      gcongr
    _ = 2 ^ (b - 1) := by rw [zpow_sub_one₀ two_ne_zero, div_eq_mul_inv]

end Rounds

end SchemaMatch.Precision

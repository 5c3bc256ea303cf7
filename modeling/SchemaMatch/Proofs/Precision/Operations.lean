import Mathlib.Analysis.Real.Sqrt
import SchemaMatch.Proofs.Precision.Rounding

/-!
# Operations

On finite numbers of a format, each operation computes a mantissa that represents its exact result
and has enough digits to be rounded, so that what it gives is nearest to this result: `rounds_add`,
`rounds_mul`, `rounds_sqrt`, `rounds_div` and `rounds_normalize`.

* A sum is computed exactly, at the lower of the two exponents.
* A product is exact as well, and has the digits of both factors.
* For a root, the mantissa is extended first, so that the integer root of it has enough digits; what
  remains tells on which side of the middle the real root is (`represents_sqrt`).
* So is the first mantissa of a quotient, as far as the exponents of both tell that it has to be
  (`represents_div`, `digits_div`).
-/

namespace SchemaMatch.Precision

open Float.Model Float.Model.UnpackedFloat

variable {F : Format}

/-! ## Sums and products -/

theorem sign_mul_comm (s s' : Sign) : s * s' = s' * s := by
  cases s <;> cases s' <;> rfl

/-- A product does not depend on the order of the factors, whatever kinds of numbers they are. -/
protected theorem mul_comm (a b : UnpackedFloat) :
    UnpackedFloat.mul F a b = UnpackedFloat.mul F b a := by
  cases a <;> cases b <;> dsimp only [UnpackedFloat.mul] <;>
    simp only [sign_mul_comm, Nat.mul_comm, Int.add_comm]

theorem minExponent_nonpos (F : Format) : F.minExponent ≤ 0 := by
  have hbits : 1 + 1 ≤ F.mantissaBits := Nat.add_le_add_left F.hm 1
  have hone : (1 : ℤ) ≤ 2 ^ (F.exponentBits - 1) := one_le_pow₀ one_le_two
  rw [Format.minExponent]
  omega

theorem rounds_zero (sign : Sign) : Rounds F 0 (.zero sign) := by
  refine ⟨rfl, trivial, 0, F.minExponent, ⟨le_rfl, ?_, .inl rfl⟩, ?_, ?_⟩
  · rw [abs_zero]
    positivity
  · rw [value_signedZero, Int.cast_zero, zero_mul]
  · rw [value_signedZero, sub_zero, abs_zero]
    positivity

/-- A number of a format is not changed by rounding. -/
theorem rounds_value {f : UnpackedFloat} (hfinite : f.isFinite = true) (hf : Canonical F f) :
    Rounds F (value f) f := by
  cases f with
  | infinity => cases hfinite
  | notANumber => cases hfinite
  | zero sign => exact rounds_zero sign
  | finite sign m e hm =>
    refine ⟨rfl, hf, sign.apply m, e, ?_, rfl, ?_⟩
    · have hpos : (0 : ℝ) < 2 ^ e := by positivity
      have hspacing := isSpacing_targetExponent (F := F) hm.ne' (le_refl ((m : ℝ) * 2 ^ e))
        (mul_lt_mul_of_pos_right (lt_add_one _) hpos)
      rw [abs_value_finite]
      rwa [← hf] at hspacing
    · rw [sub_self, abs_zero]
      positivity

theorem log2_shiftLeft {m : ℕ} (hm : m ≠ 0) (n : ℕ) : (m <<< n).log2 = m.log2 + n := by
  have hle := Nat.mul_le_mul_right (2 ^ n) (Nat.log2_self_le hm)
  have hlt := Nat.mul_lt_mul_of_pos_right (@Nat.lt_log2_self m) (Nat.two_pow_pos n)
  rw [← pow_add] at hle hlt
  rw [Nat.shiftLeft_eq, Nat.log2_eq_iff (by positivity), add_right_comm]
  exact ⟨hle, hlt⟩

theorem decreaseExponent_fst (m : ℕ) (e t : ℤ) :
    ((decreaseExponent m e t).1 : ℝ) * 2 ^ (decreaseExponent m e t).2 = m * 2 ^ e := by
  rw [decreaseExponent, Nat.shiftLeft_eq]
  push_cast
  rw [mul_assoc, ← zpow_natCast, ← zpow_add₀ two_ne_zero, add_sub_cancel]

theorem decreaseExponent_snd (m : ℕ) (e t : ℤ) : (decreaseExponent m e t).2 = min e t := by
  rw [decreaseExponent]
  omega

theorem decreaseExponent_fst_ne_zero {m : ℕ} (hm : m ≠ 0) (e t : ℤ) :
    (decreaseExponent m e t).1 ≠ 0 := by
  rw [decreaseExponent, Nat.shiftLeft_eq]
  positivity

theorem totalExponent_decreaseExponent {m : ℕ} (hm : m ≠ 0) (e t : ℤ) :
    totalExponent (decreaseExponent m e t).1 (decreaseExponent m e t).2 = totalExponent m e := by
  simp only [decreaseExponent, totalExponent, log2_shiftLeft hm]
  push_cast
  ring

theorem rounds_round (sign : Sign) {m : ℕ} (hm : m ≠ 0) (e : ℤ) :
    Rounds F ((sign.apply 1 : ℤ) * (m * 2 ^ e)) (UnpackedFloat.round F sign m e) := by
  obtain ⟨t, ht⟩ : ∃ t, t = F.targetExponent (totalExponent m e) := ⟨_, rfl⟩
  have hvalue := decreaseExponent_fst m e t
  have hexponent := decreaseExponent_snd m e t
  have htotal := totalExponent_decreaseExponent hm e t
  have hrounds := rounds_roundWithAccuracy (F := F) sign (decreaseExponent_fst_ne_zero hm e t)
    (Represents.exact _) (by rw [htotal, hexponent, ← ht]; exact min_le_right _ _)
  rw [hvalue] at hrounds
  rw [UnpackedFloat.round, ← ht]
  exact hrounds

theorem rounds_normalize (m : ℤ) (e : ℤ) (zeroSign : Sign) :
    Rounds F (m * 2 ^ e) (UnpackedFloat.normalize F m e zeroSign) := by
  rw [UnpackedFloat.normalize]
  cases hcompare : compare m 0 with
  | lt =>
    have hm : m < 0 := compare_lt_iff_lt.1 hcompare
    have hnat : ((-m).toNat : ℝ) = -m := by
      exact_mod_cast Int.toNat_of_nonneg (by omega)
    have hrounds := rounds_round (F := F) .negative (m := (-m).toNat) (by omega) e
    rw [hnat] at hrounds
    simpa [Sign.apply] using hrounds
  | eq =>
    rw [compare_eq_iff_eq.1 hcompare]
    simpa using rounds_zero zeroSign
  | gt =>
    have hm : 0 < m := compare_gt_iff_gt.1 hcompare
    have hnat : (m.toNat : ℝ) = m := by
      exact_mod_cast Int.toNat_of_nonneg (by omega)
    have hrounds := rounds_round (F := F) .positive (m := m.toNat) (by omega) e
    rw [hnat] at hrounds
    simpa [Sign.apply] using hrounds

section Operations

variable {a b : UnpackedFloat} (ha : a.isFinite = true) (hb : b.isFinite = true)
  (hac : Canonical F a) (hbc : Canonical F b)

include ha hb hac hbc

theorem rounds_add : Rounds F (value a + value b) (UnpackedFloat.add F a b) := by
  cases a with
  | infinity => cases ha
  | notANumber => cases ha
  | zero s =>
    cases b with
    | infinity => cases hb
    | notANumber => cases hb
    | zero s' =>
      have hzero : ∀ s s' : Sign, ∃ z, UnpackedFloat.add F (.zero s) (.zero s') = .zero z := by
        rintro (_ | _) (_ | _) <;> exact ⟨_, rfl⟩
      obtain ⟨z, hz⟩ := hzero s s'
      rw [hz, value_signedZero, value_signedZero, zero_add]
      exact rounds_zero z
    | finite s' m' e' hm' =>
      rw [value_signedZero, zero_add]
      exact rounds_value hb hbc
  | finite s m e hm =>
    cases b with
    | infinity => cases hb
    | notANumber => cases hb
    | zero s' =>
      rw [value_signedZero, add_zero]
      exact rounds_value ha hac
    | finite s' m' e' hm' =>
      -- At the lower exponent, both mantissas are whole numbers, and so is their sum.
      have hsum : value (.finite s m e hm) + value (.finite s' m' e' hm') =
          ((s.apply (decreaseExponent m e (min e e')).1 +
            s'.apply (decreaseExponent m' e' (min e e')).1 : ℤ) : ℝ) * 2 ^ min e e' := by
        have h := decreaseExponent_fst m e (min e e')
        have h' := decreaseExponent_fst m' e' (min e e')
        rw [decreaseExponent_snd, min_eq_right (min_le_left _ _)] at h
        rw [decreaseExponent_snd, min_eq_right (min_le_right _ _)] at h'
        rw [value_finite, value_finite, Int.cast_add, cast_apply, cast_apply s',
          cast_apply s (Prod.fst _), cast_apply s' (Prod.fst _), add_mul, mul_assoc, mul_assoc,
          mul_assoc, mul_assoc, h, h']
      rw [hsum]
      exact rounds_normalize _ _ _

omit ha hb in
/-- A product has enough digits, unless both factors have the least exponent. -/
theorem add_le_targetExponent {s s' : Sign} {m m' : ℕ} {e e' : ℤ} {hm : 0 < m} {hm' : 0 < m'}
    (h : a = .finite s m e hm) (h' : b = .finite s' m' e' hm') :
    e + e' ≤ F.targetExponent (totalExponent (m * m') (e + e')) := by
  subst h h'
  rw [canonical_finite, Format.targetExponent, totalExponent] at hac hbc
  have hmin := minExponent_nonpos F
  have hlog : m.log2 + m'.log2 ≤ (m * m').log2 := by
    rw [Nat.le_log2 (by positivity), pow_add]
    exact Nat.mul_le_mul (Nat.log2_self_le hm.ne') (Nat.log2_self_le hm'.ne')
  rw [Format.targetExponent, totalExponent]
  omega

theorem rounds_mul : Rounds F (value a * value b) (UnpackedFloat.mul F a b) := by
  cases a with
  | infinity => cases ha
  | notANumber => cases ha
  | zero s =>
    cases b with
    | infinity => cases hb
    | notANumber => cases hb
    | zero s' =>
      rw [value_signedZero, zero_mul]
      exact rounds_zero (s * s')
    | finite s' m' e' hm' =>
      rw [value_signedZero, zero_mul]
      exact rounds_zero (s * s')
  | finite s m e hm =>
    cases b with
    | infinity => cases hb
    | notANumber => cases hb
    | zero s' =>
      rw [value_signedZero s', mul_zero]
      exact rounds_zero (s * s')
    | finite s' m' e' hm' =>
      -- Nothing is cut off before the product is rounded.
      have hproduct : value (.finite s m e hm) * value (.finite s' m' e' hm') =
          ((s * s').apply 1 : ℤ) * ((m * m' : ℕ) * 2 ^ (e + e')) := by
        have hsign : (s * s').apply 1 = s.apply 1 * s'.apply 1 := by
          cases s <;> cases s' <;> rfl
        rw [value_finite, value_finite, cast_apply, cast_apply s', hsign, zpow_add₀ two_ne_zero]
        push_cast
        ring
      rw [hproduct]
      exact rounds_roundWithAccuracy _ (by positivity) (Represents.exact _)
        (add_le_targetExponent hac hbc rfl rfl)

end Operations

theorem value_neg (f : UnpackedFloat) : value f.neg = -value f := by
  rcases f with _ | _ | _ | ⟨_ | _, m, e, hm⟩
  · exact neg_zero.symm
  · exact neg_zero.symm
  · exact neg_zero.symm
  · change ((Sign.positive.apply m : ℤ) : ℝ) * 2 ^ e = -((Sign.negative.apply m : ℤ) * 2 ^ e)
    simp [Sign.apply]
  · change ((Sign.negative.apply m : ℤ) : ℝ) * 2 ^ e = -((Sign.positive.apply m : ℤ) * 2 ^ e)
    simp [Sign.apply]

theorem rounds_neg {f : UnpackedFloat} (hfinite : f.isFinite = true) (hf : Canonical F f) :
    Rounds F (-value f) f.neg := by
  rw [← value_neg]
  refine rounds_value ?_ ?_
  · cases f <;> trivial
  · cases f <;> exact hf

/-- A difference is a sum, of whatever kinds of numbers. -/
theorem sub_eq_add (a b : UnpackedFloat) :
    UnpackedFloat.sub F a b = UnpackedFloat.add F a b.neg := by
  have happly : ∀ (s : Sign) (m : ℕ), (-s).apply m = -s.apply m := by
    rintro (_ | _) m
    · exact (Int.neg_neg _).symm
    · rfl
  cases a <;> cases b <;> dsimp only [UnpackedFloat.sub, UnpackedFloat.neg, UnpackedFloat.add]
  -- Of finite numbers, the mantissas are subtracted with their signs.
  simp only [happly, Int.sub_eq_add_neg]

theorem rounds_sub {a b : UnpackedFloat} (ha : a.isFinite = true) (hb : b.isFinite = true)
    (hac : Canonical F a) (hbc : Canonical F b) :
    Rounds F (value a - value b) (UnpackedFloat.sub F a b) := by
  have hneg := rounds_neg hb hbc
  rw [sub_eq_add, sub_eq_add_neg, ← value_neg]
  exact rounds_add ha hneg.isFinite hac hneg.canonical

/-! ## Square roots -/

theorem log2_sqrt {n : ℕ} (hn : n ≠ 0) : (Nat.sqrt n).log2 = n.log2 / 2 := by
  have hpos : Nat.sqrt n ≠ 0 := (Nat.sqrt_pos.2 (Nat.pos_of_ne_zero hn)).ne'
  rw [Nat.log2_eq_iff hpos, Nat.le_sqrt, Nat.sqrt_lt, ← pow_add, ← pow_add]
  constructor
  · exact (Nat.pow_le_pow_right two_pos (by omega)).trans (Nat.log2_self_le hn)
  · exact Nat.lt_log2_self.trans_le (Nat.pow_le_pow_right two_pos (by omega))

/-- The integer root stands for the real one: the remainder tells on which side of the middle it
    is. -/
theorem represents_sqrt (n : ℕ) :
    Represents (.ofMantissaAndAccuracy (Nat.sqrt n)
      (if n - Nat.sqrt n * Nat.sqrt n = 0 then .exact
        else .inexact (if n - Nat.sqrt n * Nat.sqrt n ≤ Nat.sqrt n then .lt else .gt)))
      √(n : ℝ) := by
  obtain ⟨root, hroot⟩ : ∃ root, root = Nat.sqrt n := ⟨_, rfl⟩
  have hle : root * root ≤ n := hroot ▸ Nat.sqrt_le n
  have hlt : n < (root + 1) * (root + 1) := hroot ▸ Nat.lt_succ_sqrt n
  rw [← hroot]
  obtain ⟨rest, rfl⟩ := Nat.exists_eq_add_of_le hle
  rw [Nat.add_sub_cancel_left]
  by_cases hrest : rest = 0
  · rw [if_pos hrest, hrest]
    simp [Represents, ExtendedMantissa.ofMantissaAndAccuracy]
  rw [if_neg hrest]
  have hrest : (0 : ℝ) < rest := by positivity
  have hcast : ((root * root + rest : ℕ) : ℝ) = root ^ 2 + rest := by
    push_cast
    ring
  rw [hcast]
  by_cases hside : rest ≤ root
  · have hside' : (rest : ℝ) ≤ root := by exact_mod_cast hside
    rw [if_pos hside]
    constructor
    · exact Real.lt_sqrt_of_sq_lt (by linarith)
    · rw [Real.sqrt_lt' (by positivity)]
      linarith
  · have hside' : (root : ℝ) + 1 ≤ rest := by exact_mod_cast not_le.1 hside
    have hlt' : (root : ℝ) ^ 2 + rest < (root + 1) ^ 2 := by
      have : ((root * root + rest : ℕ) : ℝ) < ((root + 1) * (root + 1) : ℕ) := by
        exact_mod_cast hlt
      push_cast at this
      linarith
    rw [if_neg hside]
    constructor
    · exact Real.lt_sqrt_of_sq_lt (by linarith)
    · rw [Real.sqrt_lt' (by positivity)]
      exact hlt'

/-- A root is one of a mantissa with an even exponent. -/
theorem sqrt_mul_two_zpow (m n : ℕ) {e t : ℤ} (h : e = 2 * t + n) :
    √((m : ℝ) * 2 ^ e) = √((m <<< n : ℕ) : ℝ) * 2 ^ t := by
  have hpos : (0 : ℝ) ≤ 2 ^ t := by positivity
  have hsq : (m : ℝ) * 2 ^ e = (m <<< n : ℕ) * (2 ^ t) ^ 2 := by
    rw [Nat.shiftLeft_eq, h, zpow_add₀ two_ne_zero, mul_comm 2 t, zpow_mul, zpow_ofNat,
      zpow_natCast]
    push_cast
    ring
  rw [hsq, Real.sqrt_mul (by positivity), Real.sqrt_sq hpos]

/-- The root has half of the digits, before and after the point. -/
theorem totalExponent_sqrt {m : ℕ} (hm : m ≠ 0) {n : ℕ} {e t : ℤ} (h : e = 2 * t + n) :
    totalExponent (Nat.sqrt (m <<< n)) t = (totalExponent m e + 1) / 2 := by
  have hne : m <<< n ≠ 0 := by
    rw [Nat.shiftLeft_eq]
    positivity
  rw [totalExponent, totalExponent, log2_sqrt hne, log2_shiftLeft hm]
  omega

theorem rounds_sqrt {a : UnpackedFloat} (ha : a.isFinite = true) (hnonneg : 0 ≤ value a) :
    Rounds F √(value a) (UnpackedFloat.sqrt F a) := by
  rcases a with _ | _ | s | ⟨_ | _, m, e, hm⟩
  · cases ha
  · cases ha
  · rw [value_signedZero, Real.sqrt_zero]
    exact rounds_zero s
  · have hneg : value (.finite .negative m e hm) < 0 := by
      have : (0 : ℝ) < m * 2 ^ e := by positivity
      rw [value_finite, cast_apply, mul_assoc, Sign.apply]
      push_cast
      linarith
    exact absurd hnonneg (not_le.2 hneg)
  · obtain ⟨t, ht⟩ : ∃ t, t = min (e / 2)
        (F.targetExponent ((totalExponent m e + 1) / 2)) := ⟨_, rfl⟩
    -- The mantissa is extended so that the exponent becomes even.
    obtain ⟨n, hn⟩ : ∃ n : ℕ, e = 2 * t + n := by
      have hle : t ≤ e / 2 := ht ▸ min_le_left _ _
      exact ⟨(e - 2 * t).toNat, by omega⟩
    have hroot : Nat.sqrt (m <<< n) ≠ 0 := by
      rw [Nat.shiftLeft_eq]
      exact (Nat.sqrt_pos.2 (by positivity)).ne'
    have htarget : t ≤ F.targetExponent (totalExponent (Nat.sqrt (m <<< n)) t) := by
      rw [totalExponent_sqrt hm.ne' hn, ht]
      exact min_le_right _ _
    have hrounds := rounds_roundWithAccuracy (F := F) .positive hroot (represents_sqrt _) htarget
    rw [← sqrt_mul_two_zpow m n hn, Sign.apply, Int.cast_one, one_mul] at hrounds
    have hvalue : value (.finite .positive m e hm) = m * 2 ^ e := by
      rw [value_finite, Sign.apply, Int.cast_natCast]
    have ht' : min (e.ediv 2) (F.targetExponent ((totalExponent m e + 1).ediv 2)) = t := ht.symm
    have hshift : (e - 2 * t).toNat = n := by omega
    rw [hvalue]
    dsimp only [UnpackedFloat.sqrt, sqrtCore]
    rw [ht', hshift]
    exact hrounds

/-! ## Quotients -/

/-- The quotient of whole numbers stands for the real one: twice the remainder tells on which side
    of the middle it is. -/
theorem represents_div (m : ℕ) {n : ℕ} (hn : 0 < n) :
    Represents (.ofMantissaAndAccuracy (m / n) (accuracyOfFraction (m % n) n)) ((m : ℝ) / n) := by
  have hpos : (0 : ℝ) < n := by exact_mod_cast hn
  have hcast : (n : ℝ) * (m / n : ℕ) + (m % n : ℕ) = m := by exact_mod_cast Nat.div_add_mod m n
  have hdiv : (m : ℝ) / n = (m / n : ℕ) + (m % n : ℕ) / n := by
    rw [← hcast]
    field_simp
  have hlt : ((m % n : ℕ) : ℝ) / n < 1 := by
    rw [div_lt_one hpos]
    exact_mod_cast Nat.mod_lt m hn
  rw [hdiv, accuracyOfFraction]
  by_cases hrest : m % n = 0
  · rw [if_pos hrest, hrest]
    simp [Represents, ExtendedMantissa.ofMantissaAndAccuracy]
  rw [if_neg hrest]
  have hrest : (0 : ℝ) < (m % n : ℕ) / n := by positivity
  cases hside : compare (2 * (m % n)) n with
  | lt =>
    have hside : (2 : ℝ) * (m % n : ℕ) < n := by exact_mod_cast compare_lt_iff_lt.1 hside
    have : ((m % n : ℕ) : ℝ) / n < 1 / 2 := by
      rw [div_lt_div_iff₀ hpos two_pos]
      linarith
    constructor <;> linarith
  | eq =>
    have hside : (2 : ℝ) * (m % n : ℕ) = n := by exact_mod_cast compare_eq_iff_eq.1 hside
    have : ((m % n : ℕ) : ℝ) / n = 1 / 2 := by
      rw [div_eq_div_iff hpos.ne' two_ne_zero]
      linarith
    change _ = _
    rw [this]
  | gt =>
    have hside : (n : ℝ) < 2 * (m % n : ℕ) := by exact_mod_cast compare_gt_iff_gt.1 hside
    have : 1 / 2 < ((m % n : ℕ) : ℝ) / n := by
      rw [div_lt_div_iff₀ two_pos hpos]
      linarith
    constructor <;> linarith

/-- The total exponent places a number between two powers of two. -/
theorem totalExponent_bounds {m : ℕ} (hm : 0 < m) (e : ℤ) :
    2 ^ (totalExponent m e - 1) ≤ (m : ℝ) * 2 ^ e ∧ (m : ℝ) * 2 ^ e < 2 ^ totalExponent m e := by
  have hpos : (0 : ℝ) < 2 ^ e := by positivity
  have hle := mul_le_mul_of_nonneg_right (two_zpow_log2_le hm.ne') hpos.le
  have hlt := mul_lt_mul_of_pos_right ((lt_add_one (m : ℝ)).trans_le (lt_two_zpow_log2 m)) hpos
  rw [← zpow_add₀ two_ne_zero] at hle hlt
  have htotal : totalExponent m e - 1 = m.log2 + e := by
    rw [totalExponent]
    omega
  rw [htotal]
  exact ⟨hle, hlt⟩

/-- A quotient lies above the power of two that the total exponents leave for it. -/
theorem two_zpow_lt_div {m m' : ℕ} (hm : 0 < m) (hm' : 0 < m') (e e' : ℤ) :
    2 ^ (totalExponent m e - totalExponent m' e' - 1) < (m : ℝ) * 2 ^ e / (m' * 2 ^ e') := by
  obtain ⟨hle, -⟩ := totalExponent_bounds hm e
  obtain ⟨-, hlt⟩ := totalExponent_bounds hm' e'
  rw [lt_div_iff₀ (by positivity)]
  calc (2 : ℝ) ^ (totalExponent m e - totalExponent m' e' - 1) * (m' * 2 ^ e')
      < 2 ^ (totalExponent m e - totalExponent m' e' - 1) * 2 ^ totalExponent m' e' := by gcongr
    _ = 2 ^ (totalExponent m e - 1) := by
      rw [← zpow_add₀ two_ne_zero]
      congr 1
      omega
    _ ≤ m * 2 ^ e := hle

/-- In units of an exponent that the format asks for, a quotient has the digits of a mantissa. -/
theorem digits_div {m m' : ℕ} (hm : 0 < m) (hm' : 0 < m') {e e' t : ℤ} {v : ℝ}
    (ht : t ≤ F.targetExponent (totalExponent m e - totalExponent m' e'))
    (hv : v * 2 ^ t = m * 2 ^ e / (m' * 2 ^ e')) :
    t ≤ F.minExponent ∨ 2 ^ (F.mantissaBits - 1) ≤ v := by
  rw [or_iff_not_imp_left, not_le]
  intro hlow
  rw [Format.targetExponent, le_max_iff] at ht
  have hbits := one_le_mantissaBits F
  have hlt := two_zpow_lt_div hm hm' e e'
  rw [← hv] at hlt
  have hpow : (2 : ℝ) ^ (F.mantissaBits - 1) * 2 ^ t ≤
      2 ^ (totalExponent m e - totalExponent m' e' - 1) := by
    rw [← zpow_natCast, ← zpow_add₀ two_ne_zero]
    exact zpow_le_zpow (by omega)
  exact (lt_of_mul_lt_mul_right (hpow.trans_lt hlt) (by positivity)).le

/-- The first mantissa is extended, which changes the unit and not the quotient. -/
theorem shiftLeft_div_mul (m m' : ℕ) {k : ℕ} {e e' t : ℤ} (h : e - e' = t + k) :
    ((m <<< k : ℕ) : ℝ) / m' * 2 ^ t = m * 2 ^ e / (m' * 2 ^ e') := by
  have he : e = t + k + e' := by omega
  rw [Nat.shiftLeft_eq, he, zpow_add₀ two_ne_zero, zpow_add₀ two_ne_zero, zpow_natCast]
  push_cast
  field_simp

/-- What is cut off to a whole number keeps enough digits, if the exponent is low or the number has
    as many digits as a mantissa. -/
theorem digits_of_cut {q : ℕ} {t : ℤ} {v : ℝ} (hlt : v < q + 1)
    (hmin : 2 ^ F.minExponent ≤ v * 2 ^ t)
    (hdigits : t ≤ F.minExponent ∨ 2 ^ (F.mantissaBits - 1) ≤ v) :
    q ≠ 0 ∧ t ≤ F.targetExponent (totalExponent q t) := by
  have hpos : (0 : ℝ) < 2 ^ t := by positivity
  rcases hdigits with hlow | hdigits
  · refine ⟨?_, hlow.trans (min_le_targetExponent _ _)⟩
    rintro rfl
    have hle := zpow_le_zpow hlow
    rw [Nat.cast_zero, zero_add] at hlt
    have := mul_lt_mul_of_pos_right hlt hpos
    linarith
  · have hle : 2 ^ (F.mantissaBits - 1) ≤ q :=
      Nat.lt_succ_iff.1 (by exact_mod_cast hdigits.trans_lt hlt)
    have hne : q ≠ 0 := fun h => by
      rw [h] at hle
      exact absurd hle (not_le.2 (by positivity))
    have hlog := (Nat.le_log2 hne).2 hle
    refine ⟨hne, ?_⟩
    rw [Format.targetExponent, totalExponent]
    exact le_max_of_le_left (by omega)

theorem sign_div_apply_one (s s' : Sign) :
    (((s / s').apply 1 : ℤ) : ℝ) = (s.apply 1 : ℤ) / (s'.apply 1 : ℤ) := by
  have hdiv : (s / s').apply 1 = s.apply 1 * s'.apply 1 := by cases s <;> cases s' <;> rfl
  have hinv : ((s'.apply 1 : ℤ) : ℝ)⁻¹ = (s'.apply 1 : ℤ) := by cases s' <;> simp [Sign.apply]
  rw [hdiv, Int.cast_mul, div_eq_mul_inv, hinv]

/-- A quotient becomes a nearest number, unless it is below the least one of the format. -/
theorem rounds_div {a b : UnpackedFloat} (ha : a.isFinite = true) (hb : b.isFinite = true)
    (hmin : 2 ^ F.minExponent ≤ |value a / value b|) :
    Rounds F (value a / value b) (UnpackedFloat.div F a b) := by
  have hne : value a / value b ≠ 0 := abs_pos.1 (hmin.trans_lt' (by positivity))
  rcases a with _ | _ | s | ⟨s, m, e, hm⟩
  · cases ha
  · cases ha
  · exact absurd (zero_div _) hne
  rcases b with _ | _ | s' | ⟨s', m', e', hm'⟩
  · cases hb
  · cases hb
  · exact absurd (div_zero _) hne
  obtain ⟨t, ht⟩ : ∃ t, t = min (e - e')
      (F.targetExponent (totalExponent m e - totalExponent m' e')) := ⟨_, rfl⟩
  obtain ⟨k, hk⟩ : ∃ k : ℕ, e - e' = t + k := by
    have hle : t ≤ e - e' := ht ▸ min_le_left _ _
    exact ⟨(e - e' - t).toNat, by omega⟩
  have hscale := shiftLeft_div_mul m m' hk
  have hquotient : value (.finite s m e hm) / value (.finite s' m' e' hm') =
      ((s / s').apply 1 : ℤ) * ((m <<< k : ℕ) / m' * 2 ^ t) := by
    rw [value_finite, value_finite, cast_apply, cast_apply s', hscale, sign_div_apply_one,
      mul_assoc, mul_assoc, mul_div_mul_comm]
  have hdigits := digits_div hm hm' (ht ▸ min_le_right _ _) hscale
  have hpos : (0 : ℝ) < (m <<< k : ℕ) / m' * 2 ^ t := hscale ▸ by positivity
  rw [hquotient, abs_mul, abs_apply_one, one_mul, abs_of_pos hpos] at hmin
  have hrepresents := represents_div (m <<< k) hm'
  have hlt := hrepresents.lt
  rw [mantissa_ofMantissaAndAccuracy] at hlt
  obtain ⟨hcut, htarget⟩ := digits_of_cut hlt hmin hdigits
  have hrounds := rounds_roundWithAccuracy (s / s') hcut hrepresents htarget
  have hshift : (e - e' - t).toNat = k := by omega
  rw [hquotient]
  dsimp only [UnpackedFloat.div, divCore]
  rw [← ht, hshift]
  exact hrounds

end SchemaMatch.Precision

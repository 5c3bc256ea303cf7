import SchemaMatch.Proofs.Precision.Order
import SchemaMatch.Proofs.Precision.Rounding

/-!
# Kinds of numbers

What an operation makes of infinities, and of what is not a number, is told by kinds. A number taken
apart is *rising* if it is not below zero or not a number (`Rising`), and *beyond* the format if it
is rising and not finite (`Beyond`). The operations on rising numbers keep to them, and once a
number is beyond the format, so is every sum, product and root that it goes into (`beyond_add`,
`beyond_mul`, `Beyond.sqrt`); but there is no quotient of two that are (`Beyond.isNaN_div`).

That infinity times zero is not a number makes no difference here: it is beyond the format, too.
-/

namespace SchemaMatch.Precision

open Float.Model Float.Model.UnpackedFloat

variable {F : Format}

/-! ## Kinds -/

/-- Whether a number taken apart is not below zero, or none at all. -/
def Rising : UnpackedFloat → Prop
  | .infinity sign => sign = .positive
  | .finite sign _ _ _ => sign = .positive
  | _ => True

/-- Whether a number taken apart is too great for a format, or none at all. -/
structure Beyond (f : UnpackedFloat) : Prop where
  isFinite : f.isFinite = false
  rising : Rising f

theorem rising_ofMantissa (m : ℕ) (e : ℤ) : Rising (ofMantissa .positive m e) := by
  rcases m.eq_zero_or_pos with rfl | hm
  · trivial
  · rw [ofMantissa_pos _ hm]
    rfl

theorem isNaN_ofMantissa (sign : Sign) (m : ℕ) (e : ℤ) : (ofMantissa sign m e).isNaN = false := by
  rcases m.eq_zero_or_pos with rfl | hm
  · rfl
  · rw [ofMantissa_pos sign hm]
    rfl

theorem rising_roundWithAccuracy {m : ℕ} {e : ℤ} {accuracy : Accuracy} :
    Rising (roundWithAccuracy F .positive m e accuracy) := rising_ofMantissa _ _

theorem isNaN_roundWithAccuracy {sign : Sign} {m : ℕ} {e : ℤ} {accuracy : Accuracy} :
    (roundWithAccuracy F sign m e accuracy).isNaN = false := isNaN_ofMantissa _ _ _

theorem rising_normalize {m : ℤ} (hm : 0 ≤ m) {e : ℤ} {zeroSign : Sign} :
    Rising (UnpackedFloat.normalize F m e zeroSign) := by
  rw [UnpackedFloat.normalize]
  cases hcompare : compare m 0 with
  | lt => exact absurd (compare_lt_iff_lt.1 hcompare) (not_lt.2 hm)
  | eq => trivial
  | gt => exact rising_roundWithAccuracy

/-- A number that is not below zero is infinite, none at all, a zero, or positive. -/
theorem Rising.eq_or {f : UnpackedFloat} (h : Rising f) :
    f = .infinity .positive ∨ f = .notANumber ∨ (∃ s, f = .zero s) ∨
      ∃ m e hm, f = .finite .positive m e hm := by
  cases f with
  | infinity s => exact .inl (congrArg _ h)
  | notANumber => exact .inr (.inl rfl)
  | zero s => exact .inr (.inr (.inl ⟨s, rfl⟩))
  | finite s m e hm =>
    obtain rfl : s = .positive := h
    exact .inr (.inr (.inr ⟨m, e, hm, rfl⟩))

/-- What is beyond a format is infinite, or none at all. -/
theorem Beyond.eq_or {f : UnpackedFloat} (h : Beyond f) :
    f = .infinity .positive ∨ f = .notANumber := by
  have hfinite := h.isFinite
  obtain rfl | rfl | ⟨s, rfl⟩ | ⟨m, e, hm, rfl⟩ := h.rising.eq_or
  · exact .inl rfl
  · exact .inr rfl
  · cases hfinite
  · cases hfinite

theorem beyond_infinity : Beyond (.infinity .positive) := ⟨rfl, rfl⟩

theorem beyond_notANumber : Beyond .notANumber := ⟨rfl, trivial⟩

/-! ## Comparisons with zero -/

section Zero

variable {f : UnpackedFloat}

/-- What is not below zero is a number, and has no negative sign unless it is a zero. -/
theorem zero_le_iff :
    (UnpackedFloat.zero .positive).le f = true ↔ f.isNaN = false ∧ Rising f := by
  rcases f with (_ | _) | _ | _ | ⟨_ | _, m, e, _⟩ <;>
    dsimp only [UnpackedFloat.le, UnpackedFloat.compare, Rising, isNaN_infinity, isNaN_zero,
      isNaN_finite, isNaN_notANumber] <;>
    simp

/-- Only the zeros are equal to zero. -/
theorem beq_zero_iff : f.beq (.zero .positive) = true ↔ ∃ s, f = .zero s := by
  rcases f with (_ | _) | _ | s | ⟨_ | _, m, e, hm⟩
  case zero => exact iff_of_true rfl ⟨s, rfl⟩
  all_goals exact iff_of_false Bool.false_ne_true nofun

/-- A finite number stands for zero exactly if it is a zero. -/
theorem value_eq_zero_iff (hf : f.isFinite = true) :
    value f = 0 ↔ f.beq (.zero .positive) = true := by
  rw [beq_zero_iff]
  cases f with
  | infinity => cases hf
  | notANumber => cases hf
  | zero s => exact iff_of_true (value_signedZero s) ⟨s, rfl⟩
  | finite s m e hm =>
    have hne : value (.finite s m e hm) ≠ 0 := by
      rw [← abs_pos, abs_value_finite]
      positivity
    exact iff_of_false hne nofun

theorem rising_of_value_nonneg (hf : f.isFinite = true) (hnonneg : 0 ≤ value f) : Rising f := by
  rcases f with _ | _ | _ | ⟨_ | _, m, e, hm⟩
  · cases hf
  · trivial
  · trivial
  · have hpos : (0 : ℝ) < m * 2 ^ e := by positivity
    rw [value_finite, cast_apply, mul_assoc, Sign.apply] at hnonneg
    push_cast at hnonneg
    linarith
  · rfl

theorem value_nonneg_of_rising (hf : Rising f) : 0 ≤ value f := by
  obtain rfl | rfl | ⟨s, rfl⟩ | ⟨m, e, hm, rfl⟩ := hf.eq_or
  · exact le_rfl
  · exact le_rfl
  · exact le_rfl
  · rw [value_finite, Sign.apply]
    positivity

end Zero

/-! ## Operations on kinds -/

section Operations

variable {a b : UnpackedFloat}

theorem Rising.sqrt (ha : Rising a) : Rising (UnpackedFloat.sqrt F a) := by
  obtain rfl | rfl | ⟨s, rfl⟩ | ⟨m, e, hm, rfl⟩ := ha.eq_or
  · rfl
  · trivial
  · trivial
  · exact rising_roundWithAccuracy

theorem Rising.add (ha : Rising a) (hb : Rising b) : Rising (UnpackedFloat.add F a b) := by
  obtain rfl | rfl | ⟨s, rfl⟩ | ⟨m, e, hm, rfl⟩ := ha.eq_or <;>
    obtain rfl | rfl | ⟨s', rfl⟩ | ⟨m', e', hm', rfl⟩ := hb.eq_or
  any_goals trivial
  · cases s <;> cases s' <;> trivial
  · exact rising_normalize (by simp only [Sign.apply]; positivity)

theorem Rising.mul (ha : Rising a) (hb : Rising b) : Rising (UnpackedFloat.mul F a b) := by
  obtain rfl | rfl | ⟨s, rfl⟩ | ⟨m, e, hm, rfl⟩ := ha.eq_or <;>
    obtain rfl | rfl | ⟨s', rfl⟩ | ⟨m', e', hm', rfl⟩ := hb.eq_or
  any_goals trivial
  exact rising_roundWithAccuracy

/-- What is not below zero stays so when it is divided by what is neither and not a zero. -/
theorem Rising.div (ha : Rising a) (hb : Rising b) (hne : ∀ s, b ≠ .zero s) :
    Rising (UnpackedFloat.div F a b) := by
  obtain rfl | rfl | ⟨s, rfl⟩ | ⟨m, e, hm, rfl⟩ := ha.eq_or <;>
    obtain rfl | rfl | ⟨s', rfl⟩ | ⟨m', e', hm', rfl⟩ := hb.eq_or
  any_goals trivial
  · exact absurd rfl (hne s')
  · exact absurd rfl (hne s')
  · exact rising_roundWithAccuracy

theorem Beyond.sqrt (ha : Beyond a) : Beyond (UnpackedFloat.sqrt F a) := by
  obtain rfl | rfl := ha.eq_or
  · exact beyond_infinity
  · exact beyond_notANumber

theorem beyond_add (ha : Rising a) (hb : Rising b) (h : Beyond a ∨ Beyond b) :
    Beyond (UnpackedFloat.add F a b) := by
  obtain rfl | rfl | ⟨s, rfl⟩ | ⟨m, e, hm, rfl⟩ := ha.eq_or <;>
    obtain rfl | rfl | ⟨s', rfl⟩ | ⟨m', e', hm', rfl⟩ := hb.eq_or
  any_goals exact beyond_infinity
  any_goals exact beyond_notANumber
  -- Neither of two finite numbers is beyond the format.
  all_goals rcases h with h | h <;> cases h.isFinite

theorem beyond_mul (ha : Rising a) (hb : Rising b) (h : Beyond a ∨ Beyond b) :
    Beyond (UnpackedFloat.mul F a b) := by
  obtain rfl | rfl | ⟨s, rfl⟩ | ⟨m, e, hm, rfl⟩ := ha.eq_or <;>
    obtain rfl | rfl | ⟨s', rfl⟩ | ⟨m', e', hm', rfl⟩ := hb.eq_or
  any_goals exact beyond_infinity
  any_goals exact beyond_notANumber
  all_goals rcases h with h | h <;> cases h.isFinite

/-- Of two that are beyond a format there is no quotient. -/
theorem Beyond.isNaN_div (ha : Beyond a) (hb : Beyond b) :
    (UnpackedFloat.div F a b).isNaN = true := by
  obtain rfl | rfl := ha.eq_or <;> obtain rfl | rfl := hb.eq_or <;> rfl

/-- Finite numbers have a quotient, unless the divisor is a zero. -/
theorem isNaN_div_of_isFinite (ha : a.isFinite = true) (hb : b.isFinite = true)
    (hne : ∀ s, b ≠ .zero s) : (UnpackedFloat.div F a b).isNaN = false := by
  rcases b with _ | _ | s | ⟨s', m', e', hm'⟩
  · cases hb
  · cases hb
  · exact absurd rfl (hne s)
  · rcases a with _ | _ | s | ⟨s, m, e, hm⟩
    · cases ha
    · cases ha
    · rfl
    · exact isNaN_roundWithAccuracy

end Operations

end SchemaMatch.Precision

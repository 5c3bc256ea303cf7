import Mathlib.Algebra.Order.Ring.Int
import Mathlib.Data.Nat.Cast.Order.Basic
import Mathlib.Data.Prod.Lex
import SchemaMatch.Precision

/-!
# The order of double-precision numbers

What is not a number compares with nothing. All other numbers, the infinities and the two zeros
included, lie on the levels of one linear order (`level`), and comparing them is comparing their
levels: `lt_iff_level`, `le_iff_level` and `beq_iff_level`. The zeros lie on one level, so that the
order is not one of bits. From this the usual laws follow, with the exception made for what is not a
number.
-/

namespace SchemaMatch

open Float.Model

namespace Precision

/-! ## Numbers taken apart -/

theorem isNaN_infinity (s : UnpackedFloat.Sign) : (UnpackedFloat.infinity s).isNaN = false := rfl

theorem isNaN_zero (s : UnpackedFloat.Sign) : (UnpackedFloat.zero s).isNaN = false := rfl

theorem isNaN_finite (s : UnpackedFloat.Sign) (m : ℕ) (e : ℤ) (hm : 0 < m) :
    (UnpackedFloat.finite s m e hm).isNaN = false := rfl

theorem isNaN_notANumber : UnpackedFloat.notANumber.isNaN = true := rfl

theorem beq_eq_compare (a b : UnpackedFloat) : a.beq b = (a.compare b == some .eq) := rfl

end Precision

namespace Double

open Precision

/-- The level of a number taken apart: below, at or above zero or infinite, then by exponent and by
    mantissa, which count downwards below zero. What is not a number lies anywhere. -/
def levelOf : UnpackedFloat → Int ×ₗ Int ×ₗ Int
  | .infinity .negative => toLex (-2, toLex (0, 0))
  | .finite .negative mantissa exponent _ => toLex (-1, toLex (-exponent, -mantissa))
  | .zero _ => toLex (0, toLex (0, 0))
  | .finite .positive mantissa exponent _ => toLex (1, toLex (exponent, mantissa))
  | .infinity .positive => toLex (2, toLex (0, 0))
  | .notANumber => toLex (0, toLex (0, 0))

theorem compare_eq_lt_iff (a b : UnpackedFloat) :
    a.compare b = some .lt ↔ a.isNaN = false ∧ b.isNaN = false ∧ levelOf a < levelOf b := by
  rcases a with (_ | _) | _ | _ | ⟨_ | _, m, e, _⟩ <;>
    rcases b with (_ | _) | _ | _ | ⟨_ | _, n, f, _⟩ <;>
    dsimp only [UnpackedFloat.compare, isNaN_infinity, isNaN_zero, isNaN_finite, isNaN_notANumber,
      levelOf] <;>
    simp [Prod.Lex.toLex_lt_toLex, Ordering.swap_eq_lt, Ordering.then_eq_lt, Ordering.then_eq_gt,
      compare_gt_iff_gt, compare_lt_iff_lt]
  -- What is left are the two infinities, whose signs are compared.
  rfl

theorem compare_eq_eq_iff (a b : UnpackedFloat) :
    a.compare b = some .eq ↔ a.isNaN = false ∧ b.isNaN = false ∧ levelOf a = levelOf b := by
  rcases a with (_ | _) | _ | _ | ⟨_ | _, m, e, _⟩ <;>
    rcases b with (_ | _) | _ | _ | ⟨_ | _, n, f, _⟩ <;>
    dsimp only [UnpackedFloat.compare, isNaN_infinity, isNaN_zero, isNaN_finite, isNaN_notANumber,
      levelOf] <;>
    simp
  -- What is left are infinities of one sign.
  · rfl
  · rfl

/-- The level of a number. -/
def level (x : Float) : Int ×ₗ Int ×ₗ Int := levelOf x.toModel.unpack

variable {x y z : Float}

/-! ## Comparing is comparing levels -/

theorem lt_iff_level : x < y ↔ x.isNaN = false ∧ y.isNaN = false ∧ level x < level y := by
  have h : x < y ↔ x.toModel.unpack.compare y.toModel.unpack = some .lt := by
    change decide (x.toModel.unpack.lt y.toModel.unpack = true) = true ↔ _
    simp [UnpackedFloat.lt]
  exact h.trans (compare_eq_lt_iff _ _)

theorem beq_iff_level :
    (x == y) = true ↔ x.isNaN = false ∧ y.isNaN = false ∧ level x = level y := by
  have h : (x == y) = true ↔ x.toModel.unpack.compare y.toModel.unpack = some .eq := by
    change x.toModel.unpack.beq y.toModel.unpack = true ↔ _
    simp [beq_eq_compare]
  exact h.trans (compare_eq_eq_iff _ _)

theorem le_iff_lt_or_beq : x ≤ y ↔ x < y ∨ (x == y) = true := by
  change decide (x.toModel.unpack.le y.toModel.unpack = true) = true ↔
    decide (x.toModel.unpack.lt y.toModel.unpack = true) = true ∨
      x.toModel.unpack.beq y.toModel.unpack = true
  rw [UnpackedFloat.le, UnpackedFloat.lt, beq_eq_compare]
  cases x.toModel.unpack.compare y.toModel.unpack with
  | none => simp
  | some o => cases o <;> simp

theorem le_iff_level : x ≤ y ↔ x.isNaN = false ∧ y.isNaN = false ∧ level x ≤ level y := by
  rw [le_iff_lt_or_beq, lt_iff_level, beq_iff_level, le_iff_lt_or_eq]
  tauto

/-! ## Laws -/

theorem isNaN_left_of_le (h : x ≤ y) : x.isNaN = false := (le_iff_level.1 h).1

theorem isNaN_right_of_le (h : x ≤ y) : y.isNaN = false := (le_iff_level.1 h).2.1

theorem le_trans (hxy : x ≤ y) (hyz : y ≤ z) : x ≤ z := by
  rw [le_iff_level] at *
  exact ⟨hxy.1, hyz.2.1, hxy.2.2.trans hyz.2.2⟩

theorem lt_of_le_of_lt (hxy : x ≤ y) (hyz : y < z) : x < z := by
  rw [le_iff_level] at hxy
  rw [lt_iff_level] at *
  exact ⟨hxy.1, hyz.2.1, hxy.2.2.trans_lt hyz.2.2⟩

theorem not_lt_iff (hx : x.isNaN = false) (hy : y.isNaN = false) : ¬x < y ↔ y ≤ x := by
  rw [lt_iff_level, le_iff_level]
  simp only [hx, hy, true_and, not_lt]

theorem not_le_iff (hx : x.isNaN = false) (hy : y.isNaN = false) : ¬x ≤ y ↔ y < x := by
  rw [lt_iff_level, le_iff_level]
  simp only [hx, hy, true_and, not_le]

theorem not_lt_of_le (h : x ≤ y) : ¬y < x :=
  (not_lt_iff (isNaN_right_of_le h) (isNaN_left_of_le h)).2 h

instance symm_beq_false : Std.Symm fun x y : Float => (x == y) = false :=
  ⟨fun x y h => by
    rw [Bool.eq_false_iff] at h ⊢
    intro hbeq
    obtain ⟨hy, hx, hlevel⟩ := beq_iff_level.1 hbeq
    exact h (beq_iff_level.2 ⟨hx, hy, hlevel.symm⟩)⟩

end Double

end SchemaMatch

import SchemaMatch.Proofs.Precision.Widening

/-!
# Whole numbers in single precision

A whole number goes down to single precision with one rounding, by its sign
(`unpack_singleOfInt`). A mantissa of 24 digits holds every whole number up to `2 ^ 24`. So these go
down as they are (`value_singleOfInt`), and as long as a sum of them is no greater, it is exact
(`singleOfInt_add`), whatever the order in which it is taken (`foldl_singleOfInt`).

Sums that stand for the same number are even the same: a number has one exponent with which it is
canonical, so that what stands for a real number other than zero is unique (`eq_of_value_eq`).
-/

namespace SchemaMatch

open Float.Model Float.Model.UnpackedFloat

namespace Precision

variable {F : Format}

/-- The total exponent depends on the number alone. -/
theorem totalExponent_eq_of_eq {m m' : ℕ} {e e' : ℤ} (hm : 0 < m) (hm' : 0 < m')
    (h : (m : ℝ) * 2 ^ e = m' * 2 ^ e') : totalExponent m e = totalExponent m' e' := by
  obtain ⟨hle, hlt⟩ := totalExponent_bounds hm e
  obtain ⟨hle', hlt'⟩ := totalExponent_bounds hm' e'
  rw [h] at hle hlt
  have := zpow_lt_zpow_iff.1 (hle.trans_lt hlt')
  have := zpow_lt_zpow_iff.1 (hle'.trans_lt hlt)
  omega

/-- So does the sign. -/
theorem sign_eq_of_value_eq {s s' : Sign} {m m' : ℕ} {e e' : ℤ} {hm : 0 < m} {hm' : 0 < m'}
    (h : value (.finite s m e hm) = value (.finite s' m' e' hm')) : s = s' := by
  have hpos : (0 : ℝ) < m * 2 ^ e := by positivity
  have hpos' : (0 : ℝ) < m' * 2 ^ e' := by positivity
  rw [value, value, cast_apply, cast_apply s', mul_assoc, mul_assoc] at h
  cases s <;> cases s' <;> first | rfl | (norm_num [Sign.apply] at h; linarith)

/-- Numbers of a format that stand for the same real number are equal, unless it is zero. -/
theorem eq_of_value_eq {a b : UnpackedFloat} (ha : Canonical F a) (hb : Canonical F b)
    (hne : value a ≠ 0) (h : value a = value b) : a = b := by
  cases a with
  | infinity => exact absurd rfl hne
  | notANumber => exact absurd rfl hne
  | zero => exact absurd rfl hne
  | finite s m e hm =>
    cases b with
    | infinity => exact absurd h hne
    | notANumber => exact absurd h hne
    | zero => exact absurd h hne
    | finite s' m' e' hm' =>
      have habs : |value _| = |value _| := congrArg (|·|) h
      rw [abs_value_finite, abs_value_finite] at habs
      -- Both lie between the same powers of two, and so they have the same exponent.
      obtain rfl : e = e' := by
        rw [Canonical] at ha hb
        rw [ha, hb, totalExponent_eq_of_eq hm hm' habs]
      have hpos : (0 : ℝ) < 2 ^ e := by positivity
      obtain rfl : m = m' := by exact_mod_cast mul_right_cancel₀ hpos.ne' habs
      rw [sign_eq_of_value_eq h]

theorem round_neg (m : ℕ) (e : ℤ) :
    (UnpackedFloat.round F .positive m e).neg = UnpackedFloat.round F .negative m e := by
  simp only [UnpackedFloat.round, roundWithAccuracy]
  split <;> rfl

end Precision

open Precision

/-! ## Numbers in bits -/

/-- A single-precision number is determined by what is taken apart from its bits. -/
theorem single_eq_of_unpack_eq {x y : Float32} (h : x.toModel.unpack = y.toModel.unpack) :
    x = y := by
  obtain ⟨⟨b, hb⟩⟩ := x
  obtain ⟨⟨c, hc⟩⟩ := y
  have hpack : ∀ {b : UInt32}, Format.binary32.Valid b.toBitVec →
      UnpackedFloat.pack .binary32 (UnpackedFloat.unpack .binary32 b.toBitVec) = b.toBitVec := by
    intro b hb
    rw [@pack_unpack .binary32 b.toBitVec (by decide)]
    split
    · next hnan =>
      rw [isNaNBits, decide_eq_true_eq] at hnan
      exact (hb.eq_packedNaN hnan.1 hnan.2).symm
    · rfl
  have hbits : b.toBitVec = c.toBitVec := by
    rw [← hpack hb, ← hpack hc]
    exact congrArg (UnpackedFloat.pack .binary32) h
  obtain rfl : b = c := UInt32.toBitVec_inj.1 hbits
  rfl

/-! ## Whole numbers -/

/-- What a whole number of at most 64 bits is rounded to is in the range of single precision. -/
theorem unpack_pack_of_rounds {n : ℕ} (hn : n < 2 ^ 64) {v : ℝ} {r : UnpackedFloat}
    (h : Rounds .binary32 v r) (hv : |v| = n) :
    UnpackedFloat.unpack .binary32 (UnpackedFloat.pack .binary32 r) = r := by
  refine h.unpack_pack (b := 64) (by decide) (by decide) (by decide) ?_
  have hreal : (n : ℝ) < 2 ^ 64 := by exact_mod_cast hn
  rw [hv]
  exact lt_add_of_lt_of_pos hreal (by positivity)

theorem unpack_pack_round {n : ℕ} (hn : 0 < n) (hlt : n < 2 ^ 64) (s : Sign) :
    UnpackedFloat.unpack .binary32 (UnpackedFloat.pack .binary32
        (UnpackedFloat.round .binary32 s n 0)) = UnpackedFloat.round .binary32 s n 0 := by
  refine unpack_pack_of_rounds hlt (rounds_round s hn.ne' 0) ?_
  rw [abs_mul, abs_apply_one, one_mul, zpow_zero, mul_one, Nat.abs_cast]

/-- What a whole number goes down to. -/
theorem unpack_singleOfInt {n : ℕ} (hn : 0 < n) (hlt : n < 2 ^ 64) (s : Sign) :
    (singleOfInt (s.apply n)).toModel.unpack = UnpackedFloat.round .binary32 s n 0 := by
  have hnat : n.toUInt64.toNat = n := UInt64.toNat_ofNat_of_lt' hlt
  have hmagnitude : n.toUInt64.toFloat32.toModel.unpack =
      UnpackedFloat.round .binary32 .positive n 0 := by
    have hunpack : n.toUInt64.toFloat32.toModel.unpack = UnpackedFloat.unpack .binary32
        (UnpackedFloat.pack .binary32 (UnpackedFloat.ofNat .binary32 n.toUInt64.toNat)) := rfl
    have hround :
        UnpackedFloat.ofNat .binary32 n = UnpackedFloat.round .binary32 .positive n 0 := by
      have hcompare : compare (n : ℤ) 0 = .gt := compare_gt_iff_gt.2 (by omega)
      simp only [UnpackedFloat.ofNat, UnpackedFloat.ofInt, UnpackedFloat.normalize, hcompare]
      rfl
    rw [hunpack, hnat, hround, unpack_pack_round hn hlt]
  cases s with
  | positive =>
    have hsingle : singleOfInt n = n.toUInt64.toFloat32 := by
      simp only [singleOfInt, Int.natAbs_natCast, if_neg (not_lt.2 (Int.natCast_nonneg n))]
    rw [Sign.apply, hsingle, hmagnitude]
  | negative =>
    have hneg : -(n : ℤ) < 0 := by omega
    have hsingle : singleOfInt (-n) = -n.toUInt64.toFloat32 := by
      simp only [singleOfInt, Int.natAbs_neg, Int.natAbs_natCast, if_pos hneg]
    have hunpack : (-n.toUInt64.toFloat32).toModel.unpack = UnpackedFloat.unpack .binary32
        (UnpackedFloat.pack .binary32 n.toUInt64.toFloat32.toModel.unpack.neg) := rfl
    rw [Sign.apply, hsingle, hunpack, hmagnitude, round_neg, unpack_pack_round hn hlt]

/-- A mantissa holds the whole numbers up to the first one that has too many digits, itself
    included: this is a power of two. -/
theorem value_eq_of_rounds {n : ℕ} {r : UnpackedFloat} (h : Rounds .binary32 n r)
    (hn : n ≤ 2 ^ 24) : value r = n := by
  rcases Nat.lt_or_eq_of_le hn with hlt | rfl
  · refine h.value_eq (j := n) (u := 0) (by simp) ?_ (by decide)
    rw [Nat.abs_cast]
    exact_mod_cast hlt
  · exact h.value_eq (j := 1) (u := 24) (by norm_num) (by decide) (by decide)

/-- A whole number that a mantissa can hold goes down as it is. -/
theorem rounds_singleOfInt {n : ℕ} (hn : n ≤ 2 ^ 24) :
    Rounds .binary32 n (singleOfInt n).toModel.unpack := by
  rcases Nat.eq_zero_or_pos n with rfl | hpos
  · have hunpack : (singleOfInt (0 : ℕ)).toModel.unpack = .zero .positive := rfl
    rw [hunpack, Nat.cast_zero]
    exact rounds_zero _
  · have hunpack := unpack_singleOfInt hpos (hn.trans_lt (by decide)) .positive
    have hrounds := rounds_round (F := .binary32) .positive hpos.ne' 0
    rw [zpow_zero, mul_one, Sign.apply, Int.cast_one, one_mul, ← hunpack] at hrounds
    exact hrounds

theorem value_singleOfInt {n : ℕ} (hn : n ≤ 2 ^ 24) :
    (singleOfInt n).isFinite = true ∧ value (singleOfInt n).toModel.unpack = n :=
  ⟨(rounds_singleOfInt hn).isFinite, value_eq_of_rounds (rounds_singleOfInt hn) hn⟩

theorem singleOfInt_beq_zero_iff {n : ℕ} (hn : n ≤ 2 ^ 24) :
    (singleOfInt n == 0) = true ↔ n = 0 := by
  obtain ⟨hfinite, hvalue⟩ := value_singleOfInt hn
  rw [single_beq_zero_iff hfinite, hvalue, Nat.cast_eq_zero]

/-- Sums of whole numbers that a mantissa can hold are exact. -/
theorem singleOfInt_add {m n : ℕ} (h : m + n ≤ 2 ^ 24) :
    singleOfInt m + singleOfInt n = singleOfInt (m + n : ℕ) := by
  by_cases hzero : m + n = 0
  · obtain ⟨rfl, rfl⟩ := Nat.add_eq_zero_iff.1 hzero
    rfl
  have hm : m ≤ 2 ^ 24 := by omega
  have hn : n ≤ 2 ^ 24 := by omega
  have hrounds := rounds_add (F := .binary32) (value_singleOfInt hm).1 (value_singleOfInt hn).1
    (canonical_unpack _) (canonical_unpack _)
  rw [(value_singleOfInt hm).2, (value_singleOfInt hn).2, ← Nat.cast_add] at hrounds
  have hunpack : (singleOfInt m + singleOfInt n).toModel.unpack = _ :=
    unpack_pack_of_rounds (by omega) hrounds (Nat.abs_cast _)
  have hvalue := value_eq_of_rounds hrounds h
  rw [← hunpack] at hvalue
  -- The sum is exact, and so it stands for the same number as the whole number that goes down.
  refine single_eq_of_unpack_eq (eq_of_value_eq (canonical_unpack _) (canonical_unpack _) ?_ ?_)
  · rw [hvalue, Nat.cast_ne_zero]
    exact hzero
  · rw [hvalue, (value_singleOfInt h).2]

/-- Whole numbers that are added one after the other to another one. -/
theorem foldl_singleOfInt {n : ℕ} {terms : List ℕ} (h : n + terms.sum ≤ 2 ^ 24) :
    (terms.map fun t : ℕ => singleOfInt t).foldl (· + ·) (singleOfInt n) =
      singleOfInt (n + terms.sum : ℕ) := by
  induction terms generalizing n with
  | nil => rfl
  | cons t later ih =>
    rw [List.sum_cons, ← Nat.add_assoc] at h ⊢
    rw [List.map_cons, List.foldl_cons, singleOfInt_add (by omega), ih h]

end SchemaMatch

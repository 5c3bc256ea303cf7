import SchemaMatch.Proofs.Precision.Order
import SchemaMatch.Proofs.Precision.Packing

/-!
# Arithmetic in double precision

The operations on finite double-precision numbers give what is nearest to the exact result
(`Nearest`), as long as this stays below a power of two in the range of the format (`Within`):
`nearest_add`, `nearest_mul` and `nearest_sqrt`. A sum stays below the power of two that it was
below if what is added is so small that it would be rounded away there (`Within.add_small`), which
bounds sums of any length.

Beyond the range, the operations keep the kinds of numbers (`beyond_add`, `isNaN_div_of_beyond`).
-/

namespace SchemaMatch.Double

open Float.Model Float.Model.UnpackedFloat Precision

variable {x y z : Float} {a b c : ℤ}

/-! ## Values -/

/-- The real number that a finite number stands for. -/
noncomputable def value (x : Float) : ℝ := Precision.value x.toModel.unpack

/-- Whether a number is finite and no further from zero than a power of two. -/
structure Within (b : ℤ) (x : Float) : Prop where
  isFinite : x.isFinite = true
  abs_le : |value x| ≤ 2 ^ b

/-- Whether a finite number is nearest to a real number. -/
def Nearest (v : ℝ) (x : Float) : Prop := Rounds .binary64 v x.toModel.unpack

theorem Within.mono (h : Within a x) (hab : a ≤ b) : Within b x :=
  ⟨h.isFinite, h.abs_le.trans (zpow_le_zpow hab)⟩

theorem value_zero : value 0 = 0 := rfl

theorem value_one : value 1 = 1 := by
  have hunpack : (1 : Float).toModel.unpack = .finite .positive (2 ^ 52) (-52) (by decide) := rfl
  rw [value, hunpack, Precision.value, Sign.apply]
  norm_num

theorem within_zero (b : ℤ) : Within b 0 := by
  refine ⟨rfl, ?_⟩
  rw [value_zero, abs_zero]
  positivity

/-- What an operation rounds is held as it is, unless it is out of range. -/
theorem nearest_of_unpack_eq {v : ℝ} {r : UnpackedFloat} (h : Rounds .binary64 v r)
    (hz : z.toModel.unpack = UnpackedFloat.unpack .binary64 (UnpackedFloat.pack .binary64 r))
    (hmin : -1074 ≤ b) (hmax : b < 1024) (hv : |v| < 2 ^ b + 2 ^ (b - 53)) :
    Nearest v z ∧ Within b z := by
  rw [h.unpack_pack (by decide) hmin hmax hv] at hz
  refine ⟨?_, ?_, ?_⟩
  · rw [Nearest, hz]
    exact h
  · rw [← h.isFinite, ← hz]
    rfl
  · rw [value, hz]
    exact h.abs_value_le hmin hv

theorem nearest_add (hx : x.isFinite = true) (hy : y.isFinite = true) (hmin : -1074 ≤ b)
    (hmax : b < 1024) (h : |value x + value y| < 2 ^ b + 2 ^ (b - 53)) :
    Nearest (value x + value y) (x + y) ∧ Within b (x + y) :=
  nearest_of_unpack_eq (rounds_add hx hy (canonical_unpack _) (canonical_unpack _)) rfl hmin hmax h

theorem nearest_mul (hx : Within a x) (hy : Within b y) (hmin : -1074 ≤ a + b)
    (hmax : a + b < 1024) :
    Nearest (value x * value y) (x * y) ∧ Within (a + b) (x * y) := by
  refine nearest_of_unpack_eq
    (rounds_mul hx.isFinite hy.isFinite (canonical_unpack _) (canonical_unpack _)) rfl hmin hmax ?_
  have hle := mul_le_mul hx.abs_le hy.abs_le (abs_nonneg _) (by positivity)
  rw [← abs_mul, ← zpow_add₀ two_ne_zero] at hle
  exact lt_add_of_le_of_pos hle (by positivity)

theorem nearest_sqrt (hx : Within (b + b) x) (hnonneg : 0 ≤ value x) (hmin : -1074 ≤ b)
    (hmax : b < 1024) : Nearest √(value x) x.sqrt ∧ Within b x.sqrt := by
  refine nearest_of_unpack_eq (rounds_sqrt hx.isFinite hnonneg) rfl hmin hmax ?_
  have hle : √(value x) ≤ 2 ^ b := by
    rw [Real.sqrt_le_left (by positivity), sq, ← zpow_add₀ two_ne_zero, ← abs_of_nonneg hnonneg]
    exact hx.abs_le
  rw [abs_of_nonneg (Real.sqrt_nonneg _)]
  exact lt_add_of_le_of_pos hle (by positivity)

theorem nearest_sub (hx : x.isFinite = true) (hy : y.isFinite = true) (hmin : -1074 ≤ b)
    (hmax : b < 1024) (h : |value x - value y| ≤ 2 ^ b) :
    Nearest (value x - value y) (x - y) ∧ Within b (x - y) :=
  nearest_of_unpack_eq (rounds_sub hx hy (canonical_unpack _) (canonical_unpack _)) rfl hmin hmax
    (lt_add_of_le_of_pos h (by positivity))

/-- A quotient is nearest to the exact one, if this is neither too great nor too small. -/
theorem nearest_div (hx : x.isFinite = true) (hy : y.isFinite = true)
    (hleast : 2 ^ (-1074 : ℤ) ≤ |value x / value y|) (hle : |value x / value y| ≤ 2 ^ b)
    (hmin : -1074 ≤ b) (hmax : b < 1024) :
    Nearest (value x / value y) (x / y) ∧ Within b (x / y) :=
  nearest_of_unpack_eq (rounds_div hx hy hleast) rfl hmin hmax
    (lt_add_of_le_of_pos hle (by positivity))

/-- A sum does not leave a power of two if what is added is small enough to be rounded away. -/
theorem Within.add_small (hx : Within b x) (hy : Within c y) (hc : c < b - 53)
    (hmin : -1074 ≤ b) (hmax : b < 1024) :
    Nearest (value x + value y) (x + y) ∧ Within b (x + y) := by
  refine nearest_add hx.isFinite hy.isFinite hmin hmax ?_
  calc |value x + value y| ≤ |value x| + |value y| := abs_add_le _ _
    _ ≤ 2 ^ b + 2 ^ c := add_le_add hx.abs_le hy.abs_le
    _ < 2 ^ b + 2 ^ (b - 53) := by linarith [zpow_lt_zpow_iff.2 hc]

theorem Within.add (hx : Within b x) (hy : Within b y) (hmin : -1074 ≤ b + 1)
    (hmax : b + 1 < 1024) :
    Nearest (value x + value y) (x + y) ∧ Within (b + 1) (x + y) := by
  refine nearest_add hx.isFinite hy.isFinite hmin hmax ?_
  have hle : |value x + value y| ≤ 2 ^ (b + 1) :=
    calc |value x + value y| ≤ |value x| + |value y| := abs_add_le _ _
      _ ≤ 2 ^ b + 2 ^ b := add_le_add hx.abs_le hy.abs_le
      _ = 2 ^ (b + 1) := by
        rw [zpow_add_one₀ two_ne_zero]
        ring
  exact lt_add_of_le_of_pos hle (by positivity)

theorem Nearest.value_nonneg {v : ℝ} (h : Nearest v x) (hv : 0 ≤ v) : 0 ≤ value x :=
  Rounds.value_nonneg h hv

theorem Nearest.two_zpow_le {v : ℝ} (h : Nearest v x) (ha : -1074 ≤ a) (hv : 2 ^ a ≤ v) :
    2 ^ a ≤ value x :=
  Rounds.two_zpow_le h ha hv

/-- What is nearest to a number that a mantissa can hold stands for it. -/
theorem Nearest.value_eq {v : ℝ} (h : Nearest v x) {j u : ℤ} (hv : v = j * 2 ^ u)
    (hj : |j| < 2 ^ 53) (hu : -1074 ≤ u) : value x = v :=
  Rounds.value_eq h hv hj hu

/-- A finite number is a multiple of a power of two that a mantissa can count. -/
theorem exists_value_eq (hx : x.isFinite = true) :
    ∃ j u : ℤ, value x = j * 2 ^ u ∧ |j| < 2 ^ 53 ∧ -1074 ≤ u :=
  (rounds_value hx (canonical_unpack _)).exists_value_eq

/-- What is nearest to a number does not go beyond a finite one that this does not go beyond. -/
theorem Nearest.abs_value_le {v : ℝ} (h : Nearest v x) (hy : y.isFinite = true)
    (hv : |v| ≤ |value y|) : |value x| ≤ |value y| :=
  Rounds.abs_value_le_abs_value h (rounds_value hy (canonical_unpack _)) hv

theorem Nearest.abs_sub_le {v : ℝ} (h : Nearest v x) (hb : -1074 ≤ b) (hv : |v| < 2 ^ (b + 53)) :
    |value x - v| ≤ 2 ^ (b - 1) :=
  Rounds.abs_sub_le h hb hv

theorem Nearest.value_eq_zero (h : Nearest 0 x) : value x = 0 :=
  h.value_eq (j := 0) (u := 0) (by simp) (by simp) (by omega)

/-! ## Kinds of numbers -/

theorem zero_le_iff : 0 ≤ x ↔ x.isNaN = false ∧ Rising x.toModel.unpack :=
  decide_eq_true_iff.trans Precision.zero_le_iff

theorem beq_zero_iff : (x == 0) = true ↔ ∃ s, x.toModel.unpack = .zero s :=
  Precision.beq_zero_iff

theorem beq_zero_iff_value (hx : x.isFinite = true) : (x == 0) = true ↔ value x = 0 :=
  (value_eq_zero_iff hx).symm

theorem isNaN_of_isFinite (hx : x.isFinite = true) : x.isNaN = false := by
  have hx : x.toModel.unpack.isFinite = true := hx
  change x.toModel.unpack.isNaN = false
  cases h : x.toModel.unpack with
  | notANumber => rw [h] at hx; cases hx
  | _ => rfl

/-- A finite number is above zero exactly if what it stands for is. -/
theorem zero_lt_iff_value (hx : x.isFinite = true) : 0 < x ↔ 0 < value x := by
  have hnumber := isNaN_of_isFinite hx
  constructor
  · intro hlt
    obtain ⟨-, hrising⟩ := zero_le_iff.1 (le_iff_lt_or_beq.2 (.inl hlt))
    refine lt_of_le_of_ne (value_nonneg_of_rising hrising) fun hzero => ?_
    obtain ⟨-, -, hlevel⟩ := beq_iff_level.1 ((beq_zero_iff_value hx).2 hzero.symm)
    exact (lt_iff_level.1 hlt).2.2.ne hlevel.symm
  · intro hlt
    rcases le_iff_lt_or_beq.1 (zero_le_iff.2 ⟨hnumber, rising_of_value_nonneg hx hlt.le⟩) with
      h | hbeq
    · exact h
    · obtain ⟨hzero, -, hlevel⟩ := beq_iff_level.1 hbeq
      have := (beq_zero_iff_value hx).1 (beq_iff_level.2 ⟨hnumber, hzero, hlevel.symm⟩)
      exact absurd this hlt.ne'

theorem isNaN_div (hx : x.isFinite = true) (hy : y.isFinite = true) (hne : (y == 0) = false) :
    (x / y).isNaN = false := by
  refine (isNaN_unpack_pack _).trans (isNaN_div_of_isFinite hx hy fun s hs => ?_)
  exact Bool.false_ne_true (hne.symm.trans (beq_zero_iff.2 ⟨s, hs⟩))

theorem rising_div (hx : Rising x.toModel.unpack) (hy : Rising y.toModel.unpack)
    (hne : (y == 0) = false) : Rising (x / y).toModel.unpack := by
  refine (hx.div hy fun s hs => ?_).unpack_pack
  exact Bool.false_ne_true (hne.symm.trans (beq_zero_iff.2 ⟨s, hs⟩))

theorem rising_sqrt (hx : Rising x.toModel.unpack) : Rising x.sqrt.toModel.unpack :=
  hx.sqrt.unpack_pack

theorem rising_add (hx : Rising x.toModel.unpack) (hy : Rising y.toModel.unpack) :
    Rising (x + y).toModel.unpack := (hx.add hy).unpack_pack

theorem rising_mul (hx : Rising x.toModel.unpack) (hy : Rising y.toModel.unpack) :
    Rising (x * y).toModel.unpack := (hx.mul hy).unpack_pack

theorem beyond_add (hx : Rising x.toModel.unpack) (hy : Rising y.toModel.unpack)
    (h : Beyond x.toModel.unpack ∨ Beyond y.toModel.unpack) : Beyond (x + y).toModel.unpack :=
  (Precision.beyond_add hx hy h).unpack_pack

theorem beyond_mul (hx : Rising x.toModel.unpack) (hy : Rising y.toModel.unpack)
    (h : Beyond x.toModel.unpack ∨ Beyond y.toModel.unpack) : Beyond (x * y).toModel.unpack :=
  (Precision.beyond_mul hx hy h).unpack_pack

theorem beyond_sqrt (hx : Beyond x.toModel.unpack) : Beyond x.sqrt.toModel.unpack :=
  hx.sqrt.unpack_pack

theorem isNaN_div_of_beyond (hx : Beyond x.toModel.unpack) (hy : Beyond y.toModel.unpack) :
    (x / y).isNaN = true :=
  (isNaN_unpack_pack _).trans (hx.isNaN_div hy)

/-! ## Other operations -/

protected theorem mul_comm (x y : Float) : x * y = y * x :=
  congrArg (fun r => Float.ofModel (Float.Model.pack r))
    (Precision.mul_comm x.toModel.unpack y.toModel.unpack)

theorem unpack_ofBits (n : UInt64) :
    (Float.ofBits n).toModel.unpack = UnpackedFloat.unpack .binary64 n.toBitVec :=
  unpack_pack_unpack (F := .binary64) n.toBitVec (by decide)

/-- The double-precision number with some exponent and fraction. -/
theorem unpack_ofBits_of_toNat {n : UInt64} {exponent fraction : ℕ}
    (hn : n.toNat = 2 ^ 52 * exponent + fraction) (hpos : exponent ≠ 0)
    (hexponent : exponent < 2047) (hfraction : fraction < 2 ^ 52) :
    (Float.ofBits n).toModel.unpack =
      .finite .positive (2 ^ 52 + fraction) (exponent - 1075) (by positivity) := by
  obtain ⟨b, hb⟩ : ∃ b : BitVec Format.binary64.numBits, b = n.toBitVec := ⟨_, rfl⟩
  have hnat : b.toNat = 2 ^ 52 * exponent + fraction := hb ▸ hn
  have hexponentOf : exponentOf b = exponent := by
    rw [exponentOf, hnat]
    change (2 ^ 52 * exponent + fraction) / 2 ^ 52 % 2 ^ 11 = _
    omega
  have hfractionOf : fractionOf b = fraction := by
    rw [fractionOf, hnat]
    change (2 ^ 52 * exponent + fraction) % 2 ^ 52 = _
    omega
  have hsign : signOf b = .positive := by
    have hzero : (unpackSign b).toNat = 0 := by
      rw [toNat_unpackSign, hnat]
      change (2 ^ 52 * exponent + fraction) / 2 ^ 63 % 2 = _
      omega
    rw [signOf, Sign.ofBitVec, if_pos (BitVec.eq_of_toNat_eq hzero)]
  have hones : exponentOf b ≠ 2 ^ Format.binary64.exponentBits - 1 := by
    rw [hexponentOf]
    exact hexponent.ne
  have hmin : Format.minExponent .binary64 = -1074 := rfl
  rw [unpack_ofBits, ← hb, unpack_eq, if_neg hones, if_neg (hexponentOf ▸ hpos)]
  simp only [hexponentOf, hfractionOf, hsign, hmin]
  congr 1
  omega

theorem Within.neg (hx : Within b x) (hmin : -1074 ≤ b) (hmax : b < 1024) :
    value (-x) = -value x ∧ Within b (-x) := by
  have hcanonical : Canonical .binary64 x.toModel.unpack := canonical_unpack _
  have hrounds : Rounds .binary64 (-value x) x.toModel.unpack.neg :=
    rounds_neg hx.isFinite hcanonical
  have hlt : |-value x| < 2 ^ b + 2 ^ (b - 53) := by
    rw [abs_neg]
    exact lt_add_of_le_of_pos hx.abs_le (by positivity)
  have hunpack : (-x).toModel.unpack =
      UnpackedFloat.unpack .binary64 (UnpackedFloat.pack .binary64 x.toModel.unpack.neg) := rfl
  refine ⟨?_, (nearest_of_unpack_eq hrounds hunpack hmin hmax hlt).2⟩
  rw [value, hunpack, hrounds.unpack_pack (by decide) hmin hmax hlt, value_neg, value]

/-- A whole number goes up to a nearest one. -/
theorem nearest_toFloat {n : UInt64} {b : ℕ} (hn : n.toNat ≤ 2 ^ b) (hb : b ≤ 64) :
    Nearest n.toNat n.toFloat ∧ Within b n.toFloat := by
  have hrounds : Rounds .binary64 ((n.toNat : ℤ) * 2 ^ (0 : ℤ))
      (UnpackedFloat.ofNat .binary64 n.toNat) := rounds_normalize _ _ _
  have hle : (n.toNat : ℝ) ≤ 2 ^ b := by exact_mod_cast hn
  rw [zpow_zero, mul_one, Int.cast_natCast] at hrounds
  refine nearest_of_unpack_eq (z := n.toFloat) (b := b) hrounds rfl (by omega) (by omega) ?_
  rw [Nat.abs_cast, zpow_natCast]
  exact lt_add_of_le_of_pos hle (by positivity)

/-- A whole number that a mantissa can hold is held as it is. -/
theorem value_toFloat {n : UInt64} {b : ℕ} (hb : b ≤ 53) (hn : n.toNat < 2 ^ b) :
    value n.toFloat = n.toNat ∧ Within b n.toFloat := by
  obtain ⟨hnearest, hwithin⟩ := nearest_toFloat hn.le (by omega)
  refine ⟨hnearest.value_eq (j := n.toNat) (u := 0) (by simp) ?_ (by omega), hwithin⟩
  rw [Nat.abs_cast]
  exact_mod_cast hn.trans_le (Nat.pow_le_pow_right two_pos hb)

end SchemaMatch.Double

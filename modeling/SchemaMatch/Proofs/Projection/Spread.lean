import SchemaMatch.Proofs.Precision.Arithmetic
import SchemaMatch.Proofs.Projection.Draws

/-!
# The numbers of a projection lie in an interval

A draw counts, by its upper 52 bits, parts of an interval (`Layer.part`). Spreading it takes them
for the fraction of a number between one and two, from which one is taken away without rounding
(`Layer.value_unit`). The width of the interval is exact as well; the product with it and the sum
that moves it below zero are rounded, which leaves neither bound. So a spread draw lies in the
interval, and is where its upper bits say, but for a rounding: `Layer.liesAt_spread`.

The bound of a layer is a number from `2 ^ -32` to one (`Layer.within_bound`), and thus every weight
and every bias of a seeded projection lies between the bounds of its layer:
`Projection.numbers_seeded`.
-/

namespace SchemaMatch

open Float.Model Float.Model.UnpackedFloat Double

namespace Layer

/-! ## Spread draws -/

/-- How far up the interval a draw is: its upper 52 bits, as a part of all that they can count. -/
noncomputable def part (draw : UInt64) : ℝ := (draw >>> 12).toNat / (2 ^ 52 : ℕ)

theorem toNat_shiftRight_lt (draw : UInt64) : (draw >>> 12).toNat < 2 ^ 52 := by
  have hlt := draw.toNat_lt
  rw [UInt64.toNat_shiftRight]
  change draw.toNat >>> 12 < 2 ^ 52
  rw [Nat.shiftRight_eq_div_pow]
  omega

theorem part_nonneg (draw : UInt64) : 0 ≤ part draw := by
  rw [part]
  positivity

theorem part_lt_one (draw : UInt64) : part draw < 1 := by
  rw [part, div_lt_one (by positivity)]
  exact_mod_cast toNat_shiftRight_lt draw

/-- The number between one and two with the upper bits of a draw as its fraction, less one. -/
def fraction (draw : UInt64) : Float :=
  Float.ofBits ((0x3FF0000000000000 : UInt64) ||| (draw >>> 12)) - 1

theorem unpack_ofBits_draw (draw : UInt64) :
    (Float.ofBits ((0x3FF0000000000000 : UInt64) ||| (draw >>> 12))).toModel.unpack =
      .finite .positive (2 ^ 52 + (draw >>> 12).toNat) (-52) (by positivity) := by
  have hlt := toNat_shiftRight_lt draw
  have hnat : ((0x3FF0000000000000 : UInt64) ||| (draw >>> 12)).toNat =
      2 ^ 52 * 1023 + (draw >>> 12).toNat := by
    rw [UInt64.toNat_or, Nat.two_pow_add_eq_or_of_lt hlt]
    rfl
  exact unpack_ofBits_of_toNat hnat (by decide) (by decide) hlt

/-- Nothing is rounded where one is taken away. -/
theorem value_fraction (draw : UInt64) :
    value (fraction draw) = part draw ∧ Within 0 (fraction draw) := by
  have hunpack := unpack_ofBits_draw draw
  have hlt := part_lt_one draw
  have hnonneg := part_nonneg draw
  have hfinite :
      (Float.ofBits ((0x3FF0000000000000 : UInt64) ||| (draw >>> 12))).isFinite = true := by
    change UnpackedFloat.isFinite _ = true
    rw [hunpack]
    rfl
  have hsum : value (Float.ofBits ((0x3FF0000000000000 : UInt64) ||| (draw >>> 12))) =
      1 + part draw := by
    rw [value, hunpack, Precision.value, Sign.apply, part]
    push_cast
    norm_num
    ring
  have hdifference : value (Float.ofBits ((0x3FF0000000000000 : UInt64) ||| (draw >>> 12))) -
      value 1 = part draw := by
    rw [hsum, value_one, add_sub_cancel_left]
  obtain ⟨hnearest, hwithin⟩ := nearest_sub (b := 0) hfinite (y := 1) rfl (by decide) (by decide)
    (by rw [hdifference, abs_of_nonneg hnonneg, zpow_zero]; exact hlt.le)
  rw [hdifference] at hnearest
  refine ⟨hnearest.value_eq (j := (draw >>> 12).toNat) (u := -52) ?_ ?_ (by decide), hwithin⟩
  · have hpow : ((2 ^ 52 : ℕ) : ℝ) = 2 ^ (52 : ℤ) := by norm_num
    rw [part, hpow, div_eq_mul_inv, zpow_neg, Int.cast_natCast]
  · rw [Nat.abs_cast]
    have := toNat_shiftRight_lt draw
    omega

variable {bound : Float} {b : ℤ}

/-- The width of an interval around zero is twice its bound. -/
theorem value_width (hbound : Within b bound) (hmin : -1074 ≤ b) (hmax : b < 1023) :
    value (bound - -bound) = 2 * value bound ∧ Within (b + 1) (bound - -bound) := by
  obtain ⟨hneg, hwithin⟩ := hbound.neg hmin (by omega)
  obtain ⟨j, u, hvalue, hj, hu⟩ := exists_value_eq hbound.isFinite
  have hdifference : value bound - value (-bound) = j * 2 ^ (u + 1) := by
    rw [hneg, hvalue, zpow_add_one₀ two_ne_zero]
    ring
  have hle : |value bound - value (-bound)| ≤ 2 ^ (b + 1) := by
    rw [hneg, sub_neg_eq_add, ← two_mul, abs_mul, abs_two, zpow_add_one₀ two_ne_zero, mul_comm]
    exact mul_le_mul_of_nonneg_right hbound.abs_le zero_le_two
  obtain ⟨hnearest, hwidth⟩ :=
    nearest_sub hbound.isFinite hwithin.isFinite (by omega) (by omega) hle
  refine ⟨?_, hwidth⟩
  rw [hnearest.value_eq hdifference hj (by omega), hneg]
  ring

/-- A part of the width is rounded to what lies between zero and the width. -/
theorem value_fraction_mul (hbound : Within b bound) (hnonneg : 0 ≤ value bound) (hmin : -1022 ≤ b)
    (hmax : b < 1023) (draw : UInt64) :
    (fraction draw * (bound - -bound)).isFinite = true ∧
      0 ≤ value (fraction draw * (bound - -bound)) ∧
      value (fraction draw * (bound - -bound)) ≤ 2 * value bound ∧
      |value (fraction draw * (bound - -bound)) - part draw * (2 * value bound)| ≤
        2 ^ (b - 53) := by
  obtain ⟨hfraction, hwithin⟩ := value_fraction draw
  obtain ⟨hwidth, hwithin'⟩ := value_width hbound (by omega) hmax
  obtain ⟨hnearest, hproduct⟩ := nearest_mul hwithin hwithin' (by omega) (by omega)
  rw [hfraction, hwidth] at hnearest
  have hpart := part_nonneg draw
  have hpart' := part_lt_one draw
  have hexact : 0 ≤ part draw * (2 * value bound) := by positivity
  have hle : |part draw * (2 * value bound)| ≤ |value (bound - -bound)| := by
    rw [hwidth, abs_mul, abs_of_nonneg hpart]
    exact mul_le_of_le_one_left (abs_nonneg _) hpart'.le
  have hlt : |part draw * (2 * value bound)| < 2 ^ (b - 52 + 53) := by
    have hpow : (2 : ℝ) ^ (b - 52 + 53) = 2 * 2 ^ b := by
      rw [sub_add, sub_eq_add_neg, zpow_add₀ two_ne_zero, mul_comm]
      norm_num
    have habs := hbound.abs_le
    rw [abs_of_nonneg hnonneg] at habs
    rw [hpow, abs_of_nonneg hexact]
    calc part draw * (2 * value bound) ≤ part draw * (2 * 2 ^ b) := by gcongr
      _ < 2 * 2 ^ b := mul_lt_of_lt_one_left (by positivity) hpart'
  have hvalue := hnearest.value_nonneg hexact
  refine ⟨hproduct.isFinite, hvalue, ?_, ?_⟩
  · have := hnearest.abs_value_le hwithin'.isFinite hle
    rwa [hwidth, abs_of_nonneg hvalue, abs_of_nonneg (by positivity)] at this
  · have := hnearest.abs_sub_le (by omega) hlt
    rwa [sub_sub] at this

/-- Whether a number lies in the interval from minus a bound to the bound, and there where the upper
    bits of a draw say, but for an error. -/
structure LiesAt (bound : Float) (draw : UInt64) (error : ℝ) (x : Float) : Prop where
  isFinite : x.isFinite = true
  abs_le : |value x| ≤ value bound
  near : |value x - (2 * part draw - 1) * value bound| ≤ error

/-- A spread draw lies in the interval, and is where the upper bits of the draw say, but for two
    roundings. -/
theorem liesAt_spread (hbound : Within b bound) (hnonneg : 0 ≤ value bound) (hmin : -1022 ≤ b)
    (hmax : b < 1023) (draw : UInt64) :
    LiesAt bound draw (2 ^ (b - 52)) (spread bound draw) := by
  obtain ⟨hneg, hwithin⟩ := hbound.neg (by omega) (by omega)
  obtain ⟨hfinite, hge, hle, hproduct⟩ := value_fraction_mul hbound hnonneg hmin hmax draw
  obtain ⟨product, hname⟩ : ∃ product, product = fraction draw * (bound - -bound) := ⟨_, rfl⟩
  have hspread : spread bound draw = product + -bound := hname ▸ rfl
  rw [← hname] at hfinite hge hle hproduct
  have hsum : |value product + value (-bound)| ≤ value bound := by
    rw [hneg, abs_le]
    constructor <;> linarith
  have habs := hbound.abs_le
  rw [abs_of_nonneg hnonneg] at habs
  have hpos : (0 : ℝ) < 2 ^ b := by positivity
  obtain ⟨hnearest, hwithin'⟩ := nearest_add (b := b) hfinite hwithin.isFinite (by omega) (by omega)
    (lt_add_of_le_of_pos (hsum.trans habs) (by positivity))
  rw [← hspread] at hnearest hwithin'
  refine ⟨hwithin'.isFinite, ?_, ?_⟩
  · have := hnearest.abs_value_le hbound.isFinite (hsum.trans (le_abs_self _))
    rwa [abs_of_nonneg hnonneg] at this
  · have hlt : |value product + value (-bound)| < 2 ^ (b - 52 + 53) := by
      refine (hsum.trans habs).trans_lt (Precision.zpow_lt_zpow_iff.2 (by omega))
    have hround := hnearest.abs_sub_le (by omega) hlt
    rw [sub_sub b] at hround
    have hsplit : value (spread bound draw) - (2 * part draw - 1) * value bound =
        (value (spread bound draw) - (value product + value (-bound))) +
          (value product - part draw * (2 * value bound)) := by
      rw [hneg]
      ring
    have hpow : (2 : ℝ) ^ (b - 52) = 2 ^ (b - 53) + 2 ^ (b - 53) := by
      rw [← mul_two, ← zpow_add_one₀ two_ne_zero]
      congr 1
      omega
    rw [hsplit, hpow]
    exact (abs_add_le _ _).trans (add_le_add hround hproduct)

/-! ## Bounds -/

/-- The root of a number of inputs is at least one. -/
theorem within_sqrt {inputs : ℕ} (hpos : 0 < inputs) (hlt : inputs < 2 ^ 64) :
    Within 32 inputs.toUInt64.toFloat.sqrt ∧ 1 ≤ value inputs.toUInt64.toFloat.sqrt := by
  have hnat : inputs.toUInt64.toNat = inputs := UInt64.toNat_ofNat_of_lt' hlt
  obtain ⟨hcount, hwithin⟩ := nearest_toFloat (n := inputs.toUInt64) (b := 64)
    (by rw [hnat]; exact hlt.le) le_rfl
  have hone : (2 : ℝ) ^ (0 : ℤ) ≤ inputs := by
    rw [zpow_zero]
    exact_mod_cast hpos
  rw [hnat] at hcount
  have hge := hcount.two_zpow_le (by decide) hone
  rw [zpow_zero] at hge
  obtain ⟨hroot, hwithin⟩ :=
    nearest_sqrt (b := 32) hwithin (zero_le_one.trans hge) (by decide) (by decide)
  have hroot := hroot.two_zpow_le (a := 0) (by decide) (by
    rw [zpow_zero, Real.one_le_sqrt]
    exact hge)
  rw [zpow_zero] at hroot
  exact ⟨hwithin, hroot⟩

/-- The bound of a layer is between `2 ^ -32` and one. -/
theorem within_bound {inputs : ℕ} (hpos : 0 < inputs) (hlt : inputs < 2 ^ 64) :
    Within 0 (Layer.bound inputs) ∧ 2 ^ (-32 : ℤ) ≤ value (Layer.bound inputs) := by
  obtain ⟨hwithin, hone⟩ := within_sqrt hpos hlt
  rw [Layer.bound]
  generalize inputs.toUInt64.toFloat.sqrt = root at hwithin hone
  have hroot : 0 < value root := zero_lt_one.trans_le hone
  have hle := hwithin.abs_le
  rw [abs_of_pos hroot] at hle
  have hge : (2 : ℝ) ^ (-32 : ℤ) ≤ value 1 / value root := by
    rw [value_one, le_div_iff₀ hroot, zpow_neg, inv_mul_le_iff₀ (by positivity), mul_one]
    exact hle
  have hle : |value 1 / value root| ≤ 2 ^ (0 : ℤ) := by
    rw [value_one, abs_of_pos (one_div_pos.2 hroot), zpow_zero, div_le_one hroot]
    exact hone
  have hleast : (2 : ℝ) ^ (-1074 : ℤ) ≤ |value 1 / value root| :=
    (Precision.zpow_le_zpow (by decide)).trans (hge.trans (le_abs_self _))
  obtain ⟨hquotient, hwithin⟩ :=
    nearest_div rfl hwithin.isFinite hleast hle (by decide) (by decide)
  exact ⟨hwithin, hquotient.two_zpow_le (by decide) hge⟩

end Layer

/-! ## Projections -/

namespace Projection

variable {inputs : ℕ} {widths : List ℕ} {p : Projection} {c : ProjectionForm}

/-- The numbers of inputs of stacked layers are the first one and the widths before the last. -/
theorem Stacked.inputs_mem {layers : List Layer} (h : Stacked inputs widths layers) :
    ∀ l ∈ layers, l.inputs ∈ inputs :: widths := by
  induction h with
  | nil => exact fun _ h => absurd h List.not_mem_nil
  | cons _ hshape _ ih =>
    refine List.forall_mem_cons.2 ⟨hshape.inputs_eq ▸ List.mem_cons_self, fun l hl => ?_⟩
    exact List.mem_cons_of_mem _ (ih l hl)

/-- The bounds of a projection are those of layers with some inputs. -/
theorem Stacked.exists_of_mem_bounds (h : Stacked inputs widths p.layers) {bound : Float}
    (hbound : bound ∈ p.packed.bounds) :
    ∃ n, 0 < n ∧ n ∈ inputs :: widths ∧ bound = Layer.bound n := by
  rw [PackedProjection.bounds, packed, List.mem_flatMap] at hbound
  obtain ⟨_, hpacked, hbound⟩ := hbound
  obtain ⟨l, hl, rfl⟩ := List.mem_map.1 hpacked
  exact ⟨l.inputs, (h.hasShape l hl).1, h.inputs_mem l hl, (List.mem_replicate.1 hbound).2⟩

/-- The bounds of a seeded projection are between `2 ^ -32` and one. -/
theorem within_of_mem_bounds (h : Stacked inputs c.widths p.layers) (hinputs : inputs < 2 ^ 64)
    {bound : Float} (hbound : bound ∈ p.packed.bounds) :
    Within 0 bound ∧ 2 ^ (-32 : ℤ) ≤ value bound := by
  obtain ⟨n, hpos, hn, rfl⟩ := h.exists_of_mem_bounds hbound
  refine Layer.within_bound hpos ?_
  rcases List.mem_cons.1 hn with rfl | hn
  · exact hinputs
  · obtain ⟨width, -, rfl⟩ := List.mem_map.1 hn
    exact width.toNat_lt

/-- Every number of a seeded projection lies between the bounds of its layer, and there where the
    upper bits of its draw say. -/
theorem numbers_seeded (hinputs : inputs < 2 ^ 64) (hp : seeded inputs c = .ok p) {n : ℕ}
    {bound : Float} (hbound : p.packed.bounds[n]? = some bound) :
    ∃ x, p.packed.numbers[n]? = some x ∧
      Layer.LiesAt bound ((Random.Key.ofSeed c.seed).draw n) (2 ^ (-52 : ℤ)) x := by
  obtain ⟨hform, hne, rfl⟩ := eq_of_seeded hp
  have hstacked := stacked_drawLayers (Nat.pos_of_ne_zero hne)
    (ProjectionForm.validate_eq_ok_iff.1 hform) (.ofSeed c.seed)
  obtain ⟨hwithin, hle⟩ := within_of_mem_bounds (p := ⟨drawLayers inputs c.widths (.ofSeed c.seed)⟩)
    hstacked hinputs (List.mem_of_getElem? hbound)
  refine ⟨_, ?_, Layer.liesAt_spread hwithin ((by positivity : (0 : ℝ) ≤ 2 ^ (-32 : ℤ)).trans hle)
    (by decide) (by decide) _⟩
  rw [numbers_drawLayers (Random.Stream.at_ofSeed c.seed), List.getElem?_mapIdx, hbound,
    Nat.zero_add]
  rfl

end Projection

end SchemaMatch

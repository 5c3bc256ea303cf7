import SchemaMatch.Embedding
import SchemaMatch.Proofs.Precision.Widening

/-!
# Cosines

The components of embeddings are single-precision numbers, and all that is computed from them is
computed in double precision. This is enough room for finite embeddings: their scalar product is
finite however many components there are (`within_dot`), and a norm is zero only where all
components are (`norm_beq_zero_of_isFinite`), so that the cosine divides by no zero.

* `cosine_symmetric_clamped`: the cosine is symmetric, and if it is a number, it lies between `-1`
  and `1`, whatever the components are;
* `cosine_mem`: the cosine of finite embeddings is such a number;
* `isNaN_cosine_iff`: the cosine of embeddings that are not below zero is a number, unless one of
  them is not finite and neither of them zero;
* `cosine_mem_of_nonnegative`: if it is a number, it lies between `0` and `1`.
-/

namespace SchemaMatch

open Float.Model Precision Double

namespace Embedding

/-! ## Sums -/

section Sums

variable {P T G : Float → Prop} {even odd : Float} {terms : List Float}

/-- What holds of the sums so far holds of the two sums that are added at the end. -/
theorem exists_splitSum_eq (hstep : ∀ s t, P s → T t → P (s + t)) (heven : P even) (hodd : P odd)
    (hterms : ∀ t ∈ terms, T t) :
    ∃ s s', P s ∧ P s' ∧ splitSum even odd terms = s + s' := by
  induction even, odd, terms using splitSum.induct with
  | case1 even odd a b later ih =>
    rw [List.forall_mem_cons, List.forall_mem_cons] at hterms
    exact ih (hstep _ _ heven hterms.1) (hstep _ _ hodd hterms.2.1) hterms.2.2
  | case2 even odd a => exact ⟨_, _, hstep _ _ heven (hterms a (by simp)), hodd, rfl⟩
  | case3 even odd => exact ⟨_, _, heven, hodd, rfl⟩

/-- What a term has and no addition takes away the sum has as well. -/
theorem splitSum_of_mem (hstep : ∀ s t, P s → T t → P (s + t))
    (hkeep : ∀ s t, P s → T t → G s ∨ G t → G (s + t))
    (hlast : ∀ s s', P s → P s' → G s ∨ G s' → G (s + s')) (heven : P even) (hodd : P odd)
    (hterms : ∀ t ∈ terms, T t) (h : G even ∨ G odd ∨ ∃ t ∈ terms, G t) :
    G (splitSum even odd terms) := by
  induction even, odd, terms using splitSum.induct with
  | case1 even odd a b later ih =>
    rw [List.forall_mem_cons, List.forall_mem_cons] at hterms
    refine ih (hstep _ _ heven hterms.1) (hstep _ _ hodd hterms.2.1) hterms.2.2 ?_
    rcases h with h | h | ⟨t, ht, h⟩
    · exact .inl (hkeep _ _ heven hterms.1 (.inl h))
    · exact .inr (.inl (hkeep _ _ hodd hterms.2.1 (.inl h)))
    · rcases List.mem_cons.1 ht with rfl | ht
      · exact .inl (hkeep _ _ heven hterms.1 (.inr h))
      · rcases List.mem_cons.1 ht with rfl | ht
        · exact .inr (.inl (hkeep _ _ hodd hterms.2.1 (.inr h)))
        · exact .inr (.inr ⟨t, ht, h⟩)
  | case2 even odd a =>
    have ha : T a := hterms a (by simp)
    refine hlast _ _ (hstep _ _ heven ha) hodd ?_
    rcases h with h | h | ⟨t, ht, h⟩
    · exact .inl (hkeep _ _ heven ha (.inl h))
    · exact .inr h
    · exact .inl (hkeep _ _ heven ha (.inr (List.mem_singleton.1 ht ▸ h)))
  | case3 even odd =>
    refine hlast _ _ heven hodd ?_
    simpa using h

end Sums

/-! ## Sums of small numbers -/

section Small

variable {terms : List Float}

/-- A sum so far of small numbers that are not below zero. -/
theorem nonneg_step {s t : Float} (hs : Within 310 s ∧ 0 ≤ value s)
    (ht : Within 256 t ∧ 0 ≤ value t) : Within 310 (s + t) ∧ 0 ≤ value (s + t) := by
  obtain ⟨hnearest, hwithin⟩ := hs.1.add_small ht.1 (by omega) (by omega) (by omega)
  exact ⟨hwithin, hnearest.value_nonneg (add_nonneg hs.2 ht.2)⟩

/-- However many small numbers there are, their sum is finite: it stops growing where what is added
    is rounded away. -/
theorem within_splitSum (h : ∀ t ∈ terms, Within 256 t) : Within 311 (splitSum 0 0 terms) := by
  obtain ⟨s, s', hs, hs', heq⟩ := exists_splitSum_eq (P := Within 310)
    (fun s t hs ht => (hs.add_small ht (by omega) (by omega) (by omega)).2) (within_zero 310)
    (within_zero 310) h
  rw [heq]
  exact (hs.add hs' (by omega) (by omega)).2

theorem value_splitSum_nonneg (h : ∀ t ∈ terms, Within 256 t ∧ 0 ≤ value t) :
    0 ≤ value (splitSum 0 0 terms) := by
  have hzero : Within 310 0 ∧ 0 ≤ value 0 := ⟨within_zero 310, value_zero.ge⟩
  obtain ⟨s, s', hs, hs', heq⟩ := exists_splitSum_eq (P := fun s => Within 310 s ∧ 0 ≤ value s)
    (fun s t hs ht => nonneg_step hs ht) hzero hzero h
  rw [heq]
  exact (hs.1.add hs'.1 (by omega) (by omega)).1.value_nonneg (add_nonneg hs.2 hs'.2)

/-- Rounding does not take the sum below a power of two that one of the terms reaches. -/
theorem two_zpow_le_splitSum (h : ∀ t ∈ terms, Within 256 t ∧ 0 ≤ value t) {a : ℤ}
    (ha : -1074 ≤ a) {t : Float} (ht : t ∈ terms) (hle : 2 ^ a ≤ value t) :
    2 ^ a ≤ value (splitSum 0 0 terms) := by
  have hzero : Within 310 0 ∧ 0 ≤ value 0 := ⟨within_zero 310, value_zero.ge⟩
  refine splitSum_of_mem (P := fun s => Within 310 s ∧ 0 ≤ value s) (G := fun s => 2 ^ a ≤ value s)
    (fun s t hs ht => nonneg_step hs ht) (fun s t hs ht hle => ?_) (fun s s' hs hs' hle => ?_)
    hzero hzero h (.inr (.inr ⟨t, ht, hle⟩))
  · refine (hs.1.add_small ht.1 (by omega) (by omega) (by omega)).1.two_zpow_le ha ?_
    rcases hle with hle | hle <;> linarith [hs.2, ht.2]
  · refine (hs.1.add hs'.1 (by omega) (by omega)).1.two_zpow_le ha ?_
    rcases hle with hle | hle <;> linarith [hs.2, hs'.2]

theorem value_splitSum_eq_zero (h : ∀ t ∈ terms, Within 256 t ∧ value t = 0) :
    value (splitSum 0 0 terms) = 0 := by
  have hzero : Within 310 0 ∧ value 0 = 0 := ⟨within_zero 310, value_zero⟩
  have hstep : ∀ s t, Within 310 s ∧ value s = 0 → Within 256 t ∧ value t = 0 →
      Within 310 (s + t) ∧ value (s + t) = 0 := by
    intro s t hs ht
    obtain ⟨hnearest, hwithin⟩ := hs.1.add_small ht.1 (by omega) (by omega) (by omega)
    rw [hs.2, ht.2, add_zero] at hnearest
    exact ⟨hwithin, hnearest.value_eq_zero⟩
  obtain ⟨s, s', hs, hs', heq⟩ :=
    exists_splitSum_eq (P := fun s => Within 310 s ∧ value s = 0) hstep hzero hzero h
  have hnearest := (hs.1.add hs'.1 (by omega) (by omega)).1
  rw [hs.2, hs'.2, add_zero] at hnearest
  rw [heq]
  exact hnearest.value_eq_zero

end Small

/-! ## Finite embeddings -/

variable {v w : Embedding}

/-- The real number that a component stands for. -/
noncomputable def component (a : Float32) : ℝ := Precision.value a.toModel.unpack

theorem isFinite_iff : v.isFinite = true ↔ ∀ a ∈ v.components, a.isFinite = true := by
  rw [isFinite, List.all_eq_true]

theorem exists_of_mem_products {t : Float} {v w : List Float32} (h : t ∈ products v w) :
    ∃ a ∈ v, ∃ b ∈ w, t = widen a * widen b := by
  rw [products, ← List.map_uncurry_zip_eq_zipWith] at h
  obtain ⟨⟨a, b⟩, hab, rfl⟩ := List.mem_map.1 h
  exact ⟨a, (List.of_mem_zip hab).1, b, (List.of_mem_zip hab).2, rfl⟩

theorem products_self (v : List Float32) : products v v = v.map fun a => widen a * widen a := by
  rw [products, List.zipWith_self]

/-- The product of two finite components. -/
theorem nearest_product {a b : Float32} (ha : a.isFinite = true) (hb : b.isFinite = true) :
    Nearest (component a * component b) (widen a * widen b) ∧
      Within 256 (widen a * widen b) := by
  obtain ⟨hwithin, hvalue⟩ := value_widen ha
  obtain ⟨hwithin', hvalue'⟩ := value_widen hb
  have h := nearest_mul hwithin hwithin' (by omega) (by omega)
  rwa [hvalue, hvalue'] at h

theorem within_products (hv : v.isFinite = true) (hw : w.isFinite = true) :
    ∀ t ∈ products v.components w.components, Within 256 t := by
  intro t ht
  obtain ⟨a, ha, b, hb, rfl⟩ := exists_of_mem_products ht
  exact (nearest_product (isFinite_iff.1 hv a ha) (isFinite_iff.1 hw b hb)).2

theorem within_dot (hv : v.isFinite = true) (hw : w.isFinite = true) :
    Within 311 (dot v.components w.components) :=
  within_splitSum (within_products hv hw)

theorem nonneg_products_self (hv : v.isFinite = true) :
    ∀ t ∈ products v.components v.components, Within 256 t ∧ 0 ≤ value t := by
  intro t ht
  rw [products_self] at ht
  obtain ⟨a, ha, rfl⟩ := List.mem_map.1 ht
  obtain ⟨hnearest, hwithin⟩ := nearest_product (isFinite_iff.1 hv a ha) (isFinite_iff.1 hv a ha)
  exact ⟨hwithin, hnearest.value_nonneg (mul_self_nonneg _)⟩

/-- The norm of a finite embedding. -/
theorem nearest_norm (hv : v.isFinite = true) :
    Nearest √(value (dot v.components v.components)) v.norm ∧ Within 156 v.norm :=
  nearest_sqrt ((within_dot hv hv).mono (by omega))
    (value_splitSum_nonneg (nonneg_products_self hv)) (by omega) (by omega)

/-- The square of a component that is not zero does not vanish, and neither does the norm. -/
theorem two_zpow_le_norm (hv : v.isFinite = true) {a : Float32} (ha : a ∈ v.components)
    (hne : component a ≠ 0) : 2 ^ (-149 : ℤ) ≤ value v.norm := by
  have hfinite := isFinite_iff.1 hv a ha
  have hleast : 2 ^ (-149 : ℤ) ≤ |component a| := two_zpow_minExponent_le (singleBits a) hne
  have hsquare : 2 ^ (-298 : ℤ) ≤ value (widen a * widen a) := by
    refine (nearest_product hfinite hfinite).1.two_zpow_le (by omega) ?_
    rw [← abs_mul_abs_self, show (-298 : ℤ) = -149 + -149 from rfl, zpow_add₀ two_ne_zero]
    exact mul_self_le_mul_self (by positivity) hleast
  have hsum : 2 ^ (-298 : ℤ) ≤ value (dot v.components v.components) := by
    refine two_zpow_le_splitSum (nonneg_products_self hv) (by omega) ?_ hsquare
    rw [products_self]
    exact List.mem_map_of_mem ha
  refine (nearest_norm hv).1.two_zpow_le (by omega) (Real.le_sqrt_of_sq_le ?_)
  rwa [← zpow_natCast, ← zpow_mul]

/-- Whether all components are zero. -/
def isZero (v : Embedding) : Bool := v.components.all (· == 0)

/-- The norm of a finite embedding is zero only where all components are. -/
theorem norm_beq_zero_of_isFinite (hv : v.isFinite = true) : (v.norm == 0) = v.isZero := by
  have hcomponent : ∀ a ∈ v.components, ((a == 0) = true ↔ component a = 0) := fun a ha =>
    single_beq_zero_iff (isFinite_iff.1 hv a ha)
  obtain ⟨hnearest, hwithin⟩ := nearest_norm hv
  rw [Bool.eq_iff_iff, beq_zero_iff_value hwithin.isFinite, isZero, List.all_eq_true]
  constructor
  · -- A component that is not zero keeps the norm from vanishing.
    intro hzero a ha
    rw [hcomponent a ha]
    by_contra hne
    have hle := two_zpow_le_norm hv ha hne
    rw [hzero] at hle
    exact absurd hle (not_le.2 (by positivity))
  · -- Sums and roots of zeros are exact.
    intro hzero
    have hdot : value (dot v.components v.components) = 0 := by
      refine value_splitSum_eq_zero fun t ht => ?_
      rw [products_self] at ht
      obtain ⟨a, ha, rfl⟩ := List.mem_map.1 ht
      have hfinite := isFinite_iff.1 hv a ha
      obtain ⟨hnearest, hwithin⟩ := nearest_product hfinite hfinite
      rw [(hcomponent a ha).1 (hzero a ha), mul_zero] at hnearest
      exact ⟨hwithin, hnearest.value_eq_zero⟩
    rw [hdot, Real.sqrt_zero] at hnearest
    exact hnearest.value_eq_zero

/-- The product of the norms of two finite embeddings does not vanish. -/
theorem mul_norm (hv : v.isFinite = true) (hw : w.isFinite = true) (hv' : (v.norm == 0) = false)
    (hw' : (w.norm == 0) = false) :
    (v.norm * w.norm).isFinite = true ∧ (v.norm * w.norm == 0) = false ∧
      0 ≤ value (v.norm * w.norm) := by
  have hnorm : ∀ {u : Embedding}, u.isFinite = true → (u.norm == 0) = false →
      2 ^ (-149 : ℤ) ≤ value u.norm := by
    intro u hu hne
    rw [norm_beq_zero_of_isFinite hu, isZero, List.all_eq_false] at hne
    obtain ⟨a, ha, hne⟩ := hne
    rw [single_beq_zero_iff (isFinite_iff.1 hu a ha)] at hne
    exact two_zpow_le_norm hu ha hne
  obtain ⟨hnearest, hwithin⟩ :=
    nearest_mul (nearest_norm hv).2 (nearest_norm hw).2 (by omega) (by omega)
  have hle : 2 ^ (-298 : ℤ) ≤ value (v.norm * w.norm) := by
    refine hnearest.two_zpow_le (by omega) ?_
    rw [show (-298 : ℤ) = -149 + -149 from rfl, zpow_add₀ two_ne_zero]
    exact mul_le_mul (hnorm hv hv') (hnorm hw hw') (by positivity)
      ((by positivity : (0 : ℝ) ≤ 2 ^ (-149 : ℤ)).trans (hnorm hv hv'))
  have hpos : 0 < value (v.norm * w.norm) := lt_of_lt_of_le (by positivity) hle
  refine ⟨hwithin.isFinite, ?_, hpos.le⟩
  rw [Bool.eq_false_iff, ne_eq, beq_zero_iff_value hwithin.isFinite]
  exact hpos.ne'

/-! ## Clamping -/

theorem clamp_mem {x : Float} (hx : x.isNaN = false) : -1 ≤ clamp x ∧ clamp x ≤ 1 := by
  have hone : (1 : Float).isNaN = false := by decide
  have hnegone : (-1 : Float).isNaN = false := by decide
  rw [clamp]
  split
  · decide
  · next hlow =>
    split
    · decide
    · next hhigh => exact ⟨(not_lt_iff hx hnegone).1 hlow, (not_lt_iff hone hx).1 hhigh⟩

theorem zero_le_clamp {x : Float} (hx : 0 ≤ x) : 0 ≤ clamp x := by
  have hlow : ¬x < -1 := fun h => by
    have h : (0 : Float) < -1 := Double.lt_of_le_of_lt hx h
    exact absurd h (by decide)
  rw [clamp, if_neg hlow]
  split
  · decide
  · exact hx

theorem isNaN_clamp (x : Float) : (clamp x).isNaN = x.isNaN := by
  cases hx : x.isNaN with
  | true =>
    have hlow : ¬x < -1 := fun h =>
      Bool.false_ne_true ((lt_iff_level.1 h).1.symm.trans hx)
    have hhigh : ¬1 < x := fun h =>
      Bool.false_ne_true ((lt_iff_level.1 h).2.1.symm.trans hx)
    rw [clamp, if_neg hlow, if_neg hhigh, hx]
  | false => exact isNaN_left_of_le (clamp_mem hx).2

/-! ## Cosines -/

/-- The cosine is zero, or a quotient by norms that are not. -/
theorem cosine_cases {P : Float → Prop} (hzero : P 0)
    (hquotient : (v.norm == 0) = false → (w.norm == 0) = false →
      P (clamp (dot v.components w.components / (v.norm * w.norm)))) : P (v.cosine w) := by
  rw [cosine]
  split
  · exact hzero
  · split
    · exact hzero
    · next hne =>
      rw [not_or, Bool.not_eq_true, Bool.not_eq_true] at hne
      exact hquotient hne.1 hne.2

/-- The cosine of finite embeddings is a number between `-1` and `1`. -/
theorem cosine_mem (hv : v.isFinite = true) (hw : w.isFinite = true) :
    -1 ≤ v.cosine w ∧ v.cosine w ≤ 1 := by
  refine cosine_cases (P := fun x => -1 ≤ x ∧ x ≤ 1) (by decide) fun hv' hw' => ?_
  obtain ⟨hfinite, hne, -⟩ := mul_norm hv hw hv' hw'
  exact clamp_mem (isNaN_div (within_dot hv hw).isFinite hfinite hne)

/-! ## Any embeddings -/

theorem products_comm (v w : List Float32) : products v w = products w v :=
  List.zipWith_comm_of_comm fun a b => Double.mul_comm (widen a) (widen b)

theorem dot_comm (v w : List Float32) : dot v w = dot w v := by
  rw [dot, products_comm, dot]

theorem cosine_comm (v w : Embedding) : v.cosine w = w.cosine v := by
  rw [cosine, cosine, dot_comm, Double.mul_comm v.norm]
  exact if_congr ne_comm rfl (if_congr or_comm rfl rfl)

/-- The cosine is the same from both sides, lies between `-1` and `1` wherever it is a number, and
    is zero for embeddings of different dimensions and for one whose norm is zero. The components
    may be any numbers, or none. -/
theorem cosine_symmetric_clamped (v w : Embedding) :
    v.cosine w = w.cosine v ∧
      ((v.cosine w).isNaN = false → -1 ≤ v.cosine w ∧ v.cosine w ≤ 1) ∧
      (v.dimension ≠ w.dimension ∨ (v.norm == 0) = true ∨ (w.norm == 0) = true →
        v.cosine w = 0) := by
  refine ⟨cosine_comm v w, fun hnumber => ?_, fun h => ?_⟩
  · revert hnumber
    refine cosine_cases (P := fun x => x.isNaN = false → -1 ≤ x ∧ x ≤ 1)
      (fun _ => by decide +kernel) fun _ _ hclamp => ?_
    exact clamp_mem ((isNaN_clamp _).symm.trans hclamp)
  · rw [cosine]
    split
    · rfl
    · next hdimension => rw [if_pos (h.resolve_left hdimension)]

/-- Infinity is divided by itself, a cosine is a number, there is one component too many, and one
    norm is zero. -/
theorem cosine_symmetric_clamped_kinds :
    (cosine ⟨[1 / 0]⟩ ⟨[1]⟩).isNaN = true ∧ cosine ⟨[1 / 0]⟩ ⟨[1]⟩ = cosine ⟨[1]⟩ ⟨[1 / 0]⟩ ∧
      (-1 ≤ cosine ⟨[3, 4]⟩ ⟨[-4, 2]⟩ ∧ cosine ⟨[3, 4]⟩ ⟨[-4, 2]⟩ ≤ 1) ∧
      cosine ⟨[1]⟩ ⟨[1, 0]⟩ = 0 ∧ cosine ⟨[0, 0]⟩ ⟨[1, 2]⟩ = 0 :=
  ⟨by decide +kernel, (cosine_symmetric_clamped _ _).1,
    (cosine_symmetric_clamped _ _).2.1 (by decide +kernel),
    (cosine_symmetric_clamped _ _).2.2 (.inl (by decide)),
    (cosine_symmetric_clamped _ _).2.2 (.inr (.inl (by decide +kernel)))⟩

/-! ## Embeddings that are not below zero -/

/-- Whether no component is below zero. -/
def Nonnegative (v : Embedding) : Prop := ∀ a ∈ v.components, 0 ≤ a

theorem value_component_nonneg {a : Float32} (ha : 0 ≤ a) : 0 ≤ component a :=
  value_nonneg_of_rising (single_zero_le_iff.1 ha).2

theorem value_dot_nonneg (hv : v.isFinite = true) (hw : w.isFinite = true) (hv' : v.Nonnegative)
    (hw' : w.Nonnegative) : 0 ≤ value (dot v.components w.components) := by
  refine value_splitSum_nonneg fun t ht => ?_
  obtain ⟨a, ha, b, hb, rfl⟩ := exists_of_mem_products ht
  obtain ⟨hnearest, hwithin⟩ := nearest_product (isFinite_iff.1 hv a ha) (isFinite_iff.1 hw b hb)
  exact ⟨hwithin, hnearest.value_nonneg
    (mul_nonneg (value_component_nonneg (hv' a ha)) (value_component_nonneg (hw' b hb)))⟩

/-- The cosine of finite embeddings that are not below zero is not either. -/
theorem cosine_nonneg (hv : v.isFinite = true) (hw : w.isFinite = true) (hv' : v.Nonnegative)
    (hw' : w.Nonnegative) : 0 ≤ v.cosine w := by
  refine cosine_cases (P := fun x => 0 ≤ x) (by decide) fun hvne hwne => ?_
  obtain ⟨hfinite, hne, hnonneg⟩ := mul_norm hv hw hvne hwne
  have hdot := (within_dot hv hw).isFinite
  refine zero_le_clamp (Double.zero_le_iff.2 ⟨isNaN_div hdot hfinite hne, ?_⟩)
  exact rising_div (rising_of_value_nonneg hdot (value_dot_nonneg hv hw hv' hw'))
    (rising_of_value_nonneg hfinite hnonneg) hne

theorem rising_products (hv : v.Nonnegative) (hw : w.Nonnegative) :
    ∀ t ∈ products v.components w.components, Rising t.toModel.unpack := by
  intro t ht
  obtain ⟨a, ha, b, hb, rfl⟩ := exists_of_mem_products ht
  exact rising_mul (rising_widen (hv a ha)) (rising_widen (hw b hb))

theorem rising_zero : Rising (0 : Float).toModel.unpack := trivial

theorem rising_dot (hv : v.Nonnegative) (hw : w.Nonnegative) :
    Rising (dot v.components w.components).toModel.unpack := by
  obtain ⟨s, s', hs, hs', heq⟩ := exists_splitSum_eq (P := fun s => Rising s.toModel.unpack)
    (fun _ _ hs ht => rising_add hs ht) rising_zero rising_zero (rising_products hv hw)
  rw [dot, heq]
  exact rising_add hs hs'

theorem rising_norm (hv : v.Nonnegative) : Rising v.norm.toModel.unpack :=
  rising_sqrt (rising_dot hv hv)

theorem exists_not_isFinite (hv : v.isFinite = false) :
    ∃ a ∈ v.components, a.isFinite = false := by
  rw [isFinite, List.all_eq_false] at hv
  simpa using hv

/-- Of two embeddings of one dimension of which one is not finite, some product is not either. -/
theorem exists_beyond_mem_products (hv : v.Nonnegative) (hw : w.Nonnegative)
    (hdimension : v.dimension = w.dimension) (h : v.isFinite = false ∨ w.isFinite = false) :
    ∃ t ∈ products v.components w.components, Beyond t.toModel.unpack := by
  obtain ⟨i, hi, hi', hfinite⟩ : ∃ (i : ℕ) (hi : i < v.components.length)
      (hi' : i < w.components.length),
      v.components[i].isFinite = false ∨ w.components[i].isFinite = false := by
    rw [dimension, dimension] at hdimension
    rcases h with h | h
    · obtain ⟨a, ha, hfinite⟩ := exists_not_isFinite h
      obtain ⟨i, hi, rfl⟩ := List.mem_iff_getElem.1 ha
      exact ⟨i, hi, hdimension.subst hi, .inl hfinite⟩
    · obtain ⟨b, hb, hfinite⟩ := exists_not_isFinite h
      obtain ⟨i, hi, rfl⟩ := List.mem_iff_getElem.1 hb
      exact ⟨i, hdimension.symm.subst hi, hi, .inr hfinite⟩
  have hv := hv _ (List.getElem_mem hi)
  have hw := hw _ (List.getElem_mem hi')
  refine ⟨widen v.components[i] * widen w.components[i], ?_, ?_⟩
  · rw [products, List.mem_iff_getElem?]
    exact ⟨i, List.getElem?_zipWith_eq_some.2
      ⟨_, _, List.getElem?_eq_getElem hi, List.getElem?_eq_getElem hi', rfl⟩⟩
  · exact beyond_mul (rising_widen hv) (rising_widen hw)
      (hfinite.imp (beyond_widen hv) (beyond_widen hw))

/-- One product that is not finite is enough for a scalar product that is not. -/
theorem beyond_dot (hv : v.Nonnegative) (hw : w.Nonnegative)
    (hdimension : v.dimension = w.dimension) (h : v.isFinite = false ∨ w.isFinite = false) :
    Beyond (dot v.components w.components).toModel.unpack :=
  splitSum_of_mem (P := fun s => Rising s.toModel.unpack) (G := fun s => Beyond s.toModel.unpack)
    (fun _ _ hs ht => rising_add hs ht) (fun _ _ hs ht => beyond_add hs ht)
    (fun _ _ hs hs' => beyond_add hs hs') rising_zero rising_zero (rising_products hv hw)
    (.inr (.inr (exists_beyond_mem_products hv hw hdimension h)))

theorem beyond_norm (hv : v.Nonnegative) (h : v.isFinite = false) : Beyond v.norm.toModel.unpack :=
  beyond_sqrt (beyond_dot hv hv rfl (.inl h))

/-- The norm of an embedding that is not below zero is zero only where all components are. -/
theorem norm_beq_zero_of_nonnegative (hv : v.Nonnegative) : (v.norm == 0) = v.isZero := by
  cases hfinite : v.isFinite with
  | true => exact norm_beq_zero_of_isFinite hfinite
  | false =>
    -- The norm is not finite, and the component that is not finite is no zero.
    have hnorm : (v.norm == 0) = false := by
      rw [Bool.eq_false_iff, ne_eq, Double.beq_zero_iff]
      rintro ⟨s, hs⟩
      have hbeyond := (beyond_norm hv hfinite).isFinite
      rw [hs] at hbeyond
      cases hbeyond
    obtain ⟨a, ha, hne⟩ := exists_not_isFinite hfinite
    rw [hnorm, eq_comm, isZero, List.all_eq_false]
    refine ⟨a, ha, fun hzero => ?_⟩
    obtain ⟨s, hs⟩ := Precision.beq_zero_iff.1 hzero
    have hne : a.toModel.unpack.isFinite = false := hne
    rw [hs] at hne
    cases hne

/-- The cosine of embeddings that are not below zero is not a number exactly if one of them is not
    finite, and neither of them zero: infinity is divided by itself. -/
theorem isNaN_cosine_iff (hv : v.Nonnegative) (hw : w.Nonnegative)
    (hdimension : v.dimension = w.dimension) :
    (v.cosine w).isNaN = true ↔
      (v.isFinite = false ∨ w.isFinite = false) ∧ v.isZero = false ∧ w.isZero = false := by
  rw [← norm_beq_zero_of_nonnegative hv, ← norm_beq_zero_of_nonnegative hw]
  constructor
  · intro hnan
    refine ⟨?_, ?_⟩
    · -- Of finite embeddings, the cosine is a number.
      by_contra hfinite
      rw [not_or, Bool.not_eq_false, Bool.not_eq_false] at hfinite
      have hnumber := isNaN_left_of_le (cosine_mem hfinite.1 hfinite.2).2
      exact Bool.false_ne_true (hnumber.symm.trans hnan)
    · -- With one that is zero, it is zero.
      have hne : ¬((v.norm == 0) = true ∨ (w.norm == 0) = true) := by
        intro hzero
        rw [cosine, if_neg (not_not.2 hdimension), if_pos hzero] at hnan
        exact absurd hnan (by decide)
      rw [not_or, Bool.not_eq_true, Bool.not_eq_true] at hne
      exact hne
  · -- Neither the scalar product nor the norms come back from what is not finite.
    rintro ⟨hfinite, hv', hw'⟩
    have hne : ¬((v.norm == 0) = true ∨ (w.norm == 0) = true) := by
      rw [hv', hw']
      simp
    rw [cosine, if_neg (not_not.2 hdimension), if_neg hne, isNaN_clamp]
    exact isNaN_div_of_beyond (beyond_dot hv hw hdimension hfinite)
      (beyond_mul (rising_norm hv) (rising_norm hw)
        (hfinite.imp (beyond_norm hv) (beyond_norm hw)))

/-- The cosine of embeddings that are not below zero lies between `0` and `1` if it is a number. -/
theorem cosine_mem_of_nonnegative (hv : v.Nonnegative) (hw : w.Nonnegative)
    (hdimension : v.dimension = w.dimension) (hnumber : (v.cosine w).isNaN = false) :
    0 ≤ v.cosine w ∧ v.cosine w ≤ 1 := by
  by_cases hfinite : v.isFinite = true ∧ w.isFinite = true
  · exact ⟨cosine_nonneg hfinite.1 hfinite.2 hv hw, (cosine_mem hfinite.1 hfinite.2).2⟩
  · -- One of them is zero, or else infinity was divided by itself.
    have hzero : (v.norm == 0) = true ∨ (w.norm == 0) = true := by
      rw [norm_beq_zero_of_nonnegative hv, norm_beq_zero_of_nonnegative hw]
      by_contra hne
      rw [not_or, Bool.not_eq_true, Bool.not_eq_true] at hne
      rw [not_and_or, Bool.not_eq_true, Bool.not_eq_true] at hfinite
      have hnan := (isNaN_cosine_iff hv hw hdimension).2 ⟨hfinite, hne⟩
      exact Bool.false_ne_true (hnumber.symm.trans hnan)
    rw [cosine, if_neg (not_not.2 hdimension), if_pos hzero]
    decide

end Embedding

end SchemaMatch

import SchemaMatch.Proofs.Projection.Packed

/-!
# Every number of a projection is one draw

A layer takes from the stream as many draws as it has weights and biases, the weights first
(`Layer.numbers_drawn`), and the next layer goes on where it stopped. So the numbers of a
projection, listed layer by layer, are the draws of its seed in their order, each spread by the
bound of its own layer: `Projection.exists_seeded_numbers`. What a layer is depends on the widths up
to its own only (`Projection.take_drawLayers`), and projections of one seed whose widths begin alike
begin with the same layers.
-/

namespace SchemaMatch

open Random.Stream (At)

/-- The weights of a layer, those of one output after those of another, and then its biases. -/
def PackedLayer.numbers (l : PackedLayer) : List Float := l.weights ++ l.biases

/-- The numbers of a projection, layer by layer. -/
def PackedProjection.numbers (p : PackedProjection) : List Float :=
  p.layers.flatMap PackedLayer.numbers

/-- For each number of a projection, the bound of the layer it belongs to. -/
def PackedProjection.bounds (p : PackedProjection) : List Float :=
  p.layers.flatMap fun l => List.replicate l.numbers.length (Layer.bound l.inputs)

theorem PackedProjection.numbers_cons (l : PackedLayer) (p : PackedProjection) :
    numbers ⟨l :: p.layers⟩ = l.numbers ++ p.numbers := List.flatMap_cons

theorem PackedProjection.bounds_cons (l : PackedLayer) (p : PackedProjection) :
    bounds ⟨l :: p.layers⟩ =
      List.replicate l.numbers.length (Layer.bound l.inputs) ++ p.bounds := List.flatMap_cons

variable {key : Random.Key} {n : ℕ} {s : Random.Stream}

namespace Layer

/-- Numbers that are drawn from a place on are the spread draws from this place on. -/
theorem drawList_at (h : At key n s) (bound : Float) (count : ℕ) :
    (drawList bound count s).1 =
        (List.replicate count bound).mapIdx (fun k bound => spread bound (key.draw (n + k))) ∧
      At key (n + count) (drawList bound count s).2 := by
  obtain ⟨hdraws, hend⟩ := h.take count
  refine ⟨List.ext_getElem (by simp [length_drawList]) fun i hi _ => ?_, hend⟩
  simp [drawList, hdraws]

/-- A layer takes its numbers from the stream one after the other. -/
theorem numbers_drawn (inputs outputs : ℕ) (s : Random.Stream) :
    let numbers := drawList (bound inputs) (inputs * outputs + outputs) s
    (drawn inputs outputs s).1.packed.numbers = numbers.1 ∧
      (drawn inputs outputs s).2 = numbers.2 := by
  rw [drawList_add, drawList_mul]
  exact ⟨rfl, rfl⟩

end Layer

namespace Projection

variable {inputs : ℕ} {c : ProjectionForm}

/-- The layers that are drawn from a place on have the spread draws from this place on. -/
theorem numbers_drawLayers (h : At key n s) (inputs : ℕ) (widths : List ℕ) :
    (packed ⟨drawLayers inputs widths s⟩).numbers =
      (packed ⟨drawLayers inputs widths s⟩).bounds.mapIdx
        fun k bound => Layer.spread bound (key.draw (n + k)) := by
  induction widths generalizing inputs n s with
  | nil => rfl
  | cons width later ih =>
    obtain ⟨hnumbers, hrest⟩ := Layer.numbers_drawn inputs width s
    obtain ⟨hspread, hend⟩ := Layer.drawList_at h (Layer.bound inputs) (inputs * width + width)
    have hlength := Layer.length_drawList (Layer.bound inputs) (inputs * width + width) s
    rw [← hrest] at hend
    rw [← hnumbers] at hspread hlength
    have hbound : (Layer.drawn inputs width s).1.packed.inputs = inputs := rfl
    have hcons : packed ⟨drawLayers inputs (width :: later) s⟩ =
        ⟨(Layer.drawn inputs width s).1.packed ::
          (packed ⟨drawLayers width later (Layer.drawn inputs width s).2⟩).layers⟩ := rfl
    rw [hcons, PackedProjection.numbers_cons, PackedProjection.bounds_cons, ih hend width,
      List.mapIdx_append, hlength, hbound, List.length_replicate, ← hspread]
    simp only [Nat.add_comm _ (inputs * width + width), ← Nat.add_assoc n]

/-- The first layers depend on the first widths only. -/
theorem take_drawLayers (inputs : ℕ) (widths : List ℕ) (s : Random.Stream) (k : ℕ) :
    (drawLayers inputs widths s).take k = drawLayers inputs (widths.take k) s := by
  induction k generalizing inputs widths s with
  | zero => rfl
  | succ k ih =>
    cases widths with
    | nil => rfl
    | cons width later =>
      rw [drawLayers_cons, List.take_succ_cons, List.take_succ_cons, drawLayers_cons, ih]

/-- The numbers of a projection are the draws of its seed, each once and in their order: the number
    at a place is the draw of this place, spread by the bound of the layer it belongs to. So two
    projections of one seed for embeddings of one dimension have the same layers as far as their
    widths are the same. -/
theorem exists_seeded_numbers (hinputs : 1 ≤ inputs) (hwidths : ∀ width ∈ c.widths, 1 ≤ width) :
    (∀ count, ((Random.Stream.ofSeed c.seed).take count).1 =
      (List.range count).map (Random.Key.ofSeed c.seed).draw) ∧
    ∃ p, seeded inputs c = .ok p ∧ PackedProjection.seeded inputs c = .ok p.packed ∧
      p.layers.map Layer.outputs = c.widths ∧
      p.packed.numbers = p.packed.bounds.mapIdx
        (fun n bound => Layer.spread bound ((Random.Key.ofSeed c.seed).draw n)) ∧
      ∀ c' : ProjectionForm, c'.seed = c.seed → (∀ width ∈ c'.widths, 1 ≤ width) →
        ∃ p', seeded inputs c' = .ok p' ∧
          ∀ common : List ℕ, common <+: c.widths → common <+: c'.widths →
            p'.layers.take common.length = p.layers.take common.length := by
  have hat := Random.Stream.at_ofSeed c.seed
  have hne : inputs ≠ 0 := Nat.pos_iff_ne_zero.1 hinputs
  have hseeded := seeded_eq_ok (ProjectionForm.validate_eq_ok_iff.2 hwidths) hne
  refine ⟨fun count => ?_, _, hseeded, by rw [packed_seeded, hseeded]; rfl,
    (stacked_drawLayers hinputs hwidths _).map_outputs, ?_,
    fun c' hseed hwidths' => ⟨_, seeded_eq_ok (ProjectionForm.validate_eq_ok_iff.2 hwidths') hne,
      fun common hcommon hcommon' => ?_⟩⟩
  · rw [(hat.take count).1, List.range_eq_range']
  · rw [numbers_drawLayers hat]
    simp only [Nat.zero_add]
  · rw [take_drawLayers, take_drawLayers, ← List.prefix_iff_eq_take.1 hcommon,
      ← List.prefix_iff_eq_take.1 hcommon', hseed]

/-- A form that goes on where another one ends. -/
theorem exists_seeded_numbers_longer :
    ∃ p p', seeded 2 ⟨[5], 3, 42⟩ = .ok p ∧ seeded 2 ⟨[5, 3], 4, 42⟩ = .ok p' ∧
      p.packed.numbers = p.packed.bounds.mapIdx
        (fun n bound => Layer.spread bound ((Random.Key.ofSeed 42).draw n)) ∧
      p'.layers.take 2 = p.layers.take 2 := by
  obtain ⟨-, p, hp, -, -, hnumbers, hcommon⟩ :=
    exists_seeded_numbers (c := ⟨[5], 3, 42⟩) (show 1 ≤ 2 by decide) (by decide)
  obtain ⟨p', hp', htake⟩ := hcommon ⟨[5, 3], 4, 42⟩ rfl (by decide)
  exact ⟨p, p', hp, hp', hnumbers, htake [5, 3] (by decide) (by decide)⟩

end Projection

end SchemaMatch

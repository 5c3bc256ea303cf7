import SchemaMatch.Projection
import SchemaMatch.Proofs.Embedding

/-!
# The range of projections

Cutting off gives the greater one of a number and zero (`Layer.cutOff_le_iff`,
`Layer.value_cutOff`), and zero for what is not a number. The last layer of a projection does so,
and narrowing keeps what is not below zero: whatever goes into a projection, and whatever its
weights are, no component of its result is below zero (`Projection.nonnegative_project`). A
component may still be infinite.
-/

namespace SchemaMatch

open Double

theorem Layer.zero_le_cutOff (x : Float) : 0 ≤ cutOff x := by
  rw [cutOff]
  split
  · next hpos => exact le_iff_lt_or_beq.2 (.inl hpos)
  · decide

/-- Cutting off gives the greater one of a number and zero. -/
theorem Layer.cutOff_le_iff {x y : Float} (hx : x.isNaN = false) :
    cutOff x ≤ y ↔ x ≤ y ∧ 0 ≤ y := by
  rw [cutOff]
  split
  · next hpos =>
    have hnonneg : 0 ≤ x := le_iff_lt_or_beq.2 (.inl hpos)
    exact ⟨fun h => ⟨h, le_trans hnonneg h⟩, And.left⟩
  · next hpos =>
    have hnonpos : x ≤ 0 := (not_lt_iff (x := 0) rfl hx).1 hpos
    exact ⟨fun h => ⟨le_trans hnonpos h, h⟩, And.right⟩

theorem Layer.cutOff_of_isNaN {x : Float} (hx : x.isNaN = true) : cutOff x = 0 := by
  refine if_neg fun hpos => ?_
  rw [(lt_iff_level.1 hpos).2.1] at hx
  cases hx

theorem Layer.value_cutOff {x : Float} (hx : x.isFinite = true) :
    (cutOff x).isFinite = true ∧ value (cutOff x) = max (value x) 0 := by
  rw [cutOff]
  split
  · next hpos => exact ⟨hx, (max_eq_left ((zero_lt_iff_value hx).1 hpos).le).symm⟩
  · next hpos =>
    rw [zero_lt_iff_value hx, not_lt] at hpos
    exact ⟨rfl, (max_eq_right hpos).symm⟩

/-- No output of a layer is below zero, whatever its inputs are. -/
theorem Layer.zero_le_of_mem_apply {l : Layer} {inputs : List Float} {x : Float}
    (hx : x ∈ l.apply inputs) : 0 ≤ x := by
  rw [apply, ← List.map_uncurry_zip_eq_zipWith] at hx
  obtain ⟨entry, -, rfl⟩ := List.mem_map.1 hx
  exact zero_le_cutOff _

theorem Layer.length_apply (l : Layer) (inputs : List Float) :
    (l.apply inputs).length = min l.weights.length l.biases.length := by
  rw [apply, List.length_zipWith]

namespace Projection

variable {p : Projection}

/-- A projection ends with its last layer. -/
theorem exists_components_project_eq (hp : p.layers ≠ []) :
    ∃ last : Layer, ∀ v, ∃ inputs, (p.project v).components = (last.apply inputs).map narrow := by
  obtain ⟨earlier, last, hlayers⟩ := (List.eq_nil_or_concat' p.layers).resolve_left hp
  refine ⟨last, fun v =>
    ⟨earlier.foldl (fun x layer => layer.apply x) (v.components.map widen), ?_⟩⟩
  rw [project, hlayers, List.foldl_append]
  rfl

/-- No component of a projection is below zero. -/
theorem nonnegative_project (hp : p.layers ≠ []) (v : Embedding) : (p.project v).Nonnegative := by
  obtain ⟨last, hlast⟩ := exists_components_project_eq hp
  obtain ⟨inputs, heq⟩ := hlast v
  intro a ha
  rw [heq] at ha
  obtain ⟨x, hx, rfl⟩ := List.mem_map.1 ha
  exact zero_le_narrow (Layer.zero_le_of_mem_apply hx)

/-- All projections have one dimension. -/
theorem dimension_project_eq (hp : p.layers ≠ []) (v w : Embedding) :
    (p.project v).dimension = (p.project w).dimension := by
  obtain ⟨last, hlast⟩ := exists_components_project_eq hp
  obtain ⟨inputs, heq⟩ := hlast v
  obtain ⟨inputs', heq'⟩ := hlast w
  rw [Embedding.dimension, Embedding.dimension, heq, heq', List.length_map, List.length_map,
    Layer.length_apply, Layer.length_apply]

theorem drawLayers_ne_nil {inputs : ℕ} {widths : List ℕ} (h : widths ≠ []) (s : Random.Stream) :
    drawLayers inputs widths s ≠ [] := by
  cases widths with
  | nil => exact absurd rfl h
  | cons width later => simp [drawLayers]

end Projection

end SchemaMatch

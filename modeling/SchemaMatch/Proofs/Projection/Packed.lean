import SchemaMatch.Projection.Packed
import SchemaMatch.Proofs.Projection
import SchemaMatch.Proofs.Projection.Shape
import SchemaMatch.Proofs.ScoreMatrix

/-!
# Nothing is left out of a packed projection

Weights that are drawn all at once are those that are drawn row by row (`Layer.packed_drawn`), and
so a packed projection is the packed form of a projection whose layers have rows
(`Projection.packed_seeded`). Its layers fit together (`PackedProjection.Fits`), and each of them
pairs all of its weights with all of its inputs (`PackedLayer.PairsAll`): cutting the list of
weights leaves nothing over, and there are as many pieces as biases. So packed layers compute what
layers with rows do (`Layer.apply_packed`), and a projection has as many features as its form says,
none of which is below zero: `Projection.exists_seeded_fits`.
-/

namespace SchemaMatch

/-! ## Sums of weighted inputs -/

/-- Two lists of one length, place by place. -/
theorem zipWith_eq_map_range {α β γ : Type} (f : α → β → γ) (a : α) (b : β) {xs : List α}
    {ys : List β} {n : ℕ} (hxs : xs.length = n) (hys : ys.length = n) :
    xs.zipWith f ys = (List.range n).map fun i => f (xs.getD i a) (ys.getD i b) := by
  refine List.ext_getElem (by simp [hxs, hys]) fun i hi _ => ?_
  rw [List.length_zipWith, lt_min_iff] at hi
  rw [List.getElem_zipWith, List.getElem_map, List.getElem_range, List.getD_eq_getElem _ _ hi.1,
    List.getD_eq_getElem _ _ hi.2]

theorem Layer.weightedFrom_eq_foldl (sum : Float) (weights inputs : List Float) :
    weightedFrom sum weights inputs = (weights.zipWith (· * ·) inputs).foldl (· + ·) sum := by
  induction weights generalizing sum inputs with
  | nil => cases inputs <;> rfl
  | cons w later ih =>
    cases inputs with
    | nil => rfl
    | cons x inputs => exact ih _ _

namespace PackedLayer

/-- The output of a number for some inputs: the sum, from the left, of the inputs times the weights
    that stand at the places of this output, and then its bias, cut off below zero. -/
def unit (l : PackedLayer) (x : List Float) (o : Nat) : Float :=
  Layer.cutOff
    (((List.range l.inputs).map fun i => l.weights.getD (o * l.inputs + i) 0 * x.getD i 0).foldl
      (· + ·) 0 + l.biases.getD o 0)

/-- Whether a layer leaves out nothing when it is applied: none of its weights, no piece of them, no
    bias, and none of the inputs. -/
structure PairsAll (l : PackedLayer) (x : List Float) : Prop where
  length_inputs : x.length = l.inputs
  flatten_pieces : (pieces l.inputs l.weights).flatten = l.weights
  length_of_mem_pieces : ∀ row ∈ pieces l.inputs l.weights, row.length = x.length
  length_pieces : (pieces l.inputs l.weights).length = l.outputs
  length_biases : l.biases.length = l.outputs
  apply_eq : l.apply x = (List.range l.outputs).map (l.unit x)

end PackedLayer

/-! ## Layers -/

namespace Layer

variable {inputs outputs : ℕ} {l : Layer} {x : List Float}

/-- Numbers are drawn together as they are one after the other. -/
theorem drawList_add (bound : Float) (m n : ℕ) (s : Random.Stream) :
    drawList bound (m + n) s =
      ((drawList bound m s).1 ++ (drawList bound n (drawList bound m s).2).1,
        (drawList bound n (drawList bound m s).2).2) := by
  simp only [drawList, Random.Stream.take_add, List.map_append]

/-- Rows hold the numbers in the order in which they are drawn. -/
theorem drawList_mul (bound : Float) (width count : ℕ) (s : Random.Stream) :
    drawList bound (width * count) s =
      ((drawRows bound width count s).1.flatten, (drawRows bound width count s).2) := by
  induction count generalizing s with
  | zero => rfl
  | succ count ih =>
    rw [Nat.mul_succ, Nat.add_comm, drawList_add, ih, drawRows_succ, List.flatten_cons]

theorem packed_drawn (inputs outputs : ℕ) (s : Random.Stream) :
    PackedLayer.drawn inputs outputs s =
      ((drawn inputs outputs s).1.packed, (drawn inputs outputs s).2) := by
  have houtputs : (drawn inputs outputs s).1.outputs = outputs :=
    (hasShape_drawn inputs outputs s).outputs_eq
  rw [packed, houtputs, PackedLayer.drawn, drawList_mul]
  rfl

theorem pieces_packed (hpos : 0 < inputs) (h : l.HasShape inputs outputs) :
    pieces l.packed.inputs l.packed.weights = l.weights := by
  rw [packed, h.inputs_eq]
  exact pieces_flatten hpos h.length_row

/-- A packed layer computes what the layer does. -/
theorem apply_packed (hpos : 0 < inputs) (h : l.HasShape inputs outputs) (x : List Float) :
    l.packed.apply x = l.apply x := by
  rw [PackedLayer.apply, pieces_packed hpos h]
  rfl

/-- The output of a number is that of the row and the bias at its place. -/
theorem unit_packed (h : l.HasShape inputs outputs) (hx : x.length = inputs) {o : ℕ}
    (ho : o < outputs) :
    l.packed.unit x o =
      cutOff (weightedFrom 0 (l.weights.getD o []) x + l.biases.getD o 0) := by
  have ho : o < l.weights.length := h.length_weights.symm ▸ ho
  have hrow : l.weights[o].length = inputs := h.length_row _ (List.getElem_mem ho)
  have hterms : (List.range inputs).map
      (fun i => l.weights.flatten.getD (o * inputs + i) 0 * x.getD i 0) =
        l.weights[o].zipWith (· * ·) x := by
    rw [zipWith_eq_map_range (· * ·) 0 0 hrow hx]
    refine List.map_congr_left fun i hi => ?_
    rw [List.getD_eq_getElem?_getD, getElem?_flatten h.length_row o (List.mem_range.1 hi),
      List.getElem?_eq_getElem ho, Option.bind_some, ← List.getD_eq_getElem?_getD]
  rw [PackedLayer.unit, packed, h.inputs_eq, hterms, weightedFrom_eq_foldl,
    List.getD_eq_getElem _ _ ho]

theorem pairsAll_packed (hpos : 0 < inputs) (h : l.HasShape inputs outputs)
    (hx : x.length = inputs) : l.packed.PairsAll x where
  length_inputs := hx.trans h.inputs_eq.symm
  flatten_pieces := by rw [pieces_packed hpos h]; rfl
  length_of_mem_pieces := by rw [pieces_packed hpos h, hx]; exact h.length_row
  length_pieces := by rw [pieces_packed hpos h, h.length_weights]; exact h.outputs_eq.symm
  length_biases := rfl
  apply_eq := by
    have houtputs : l.packed.outputs = outputs := h.outputs_eq
    rw [apply_packed hpos h, houtputs, apply,
      zipWith_eq_map_range _ [] 0 h.length_weights h.length_biases]
    exact List.map_congr_left fun o ho => (unit_packed h hx (List.mem_range.1 ho)).symm

end Layer

/-! ## Stacks -/

namespace PackedProjection

/-- Whether the layers of a projection fit together: they have some widths, the first one takes a
    number of inputs, each of the others takes the outputs of the one before it, and all have as
    many weights and biases as they need. -/
structure Fits (p : PackedProjection) (inputs : ℕ) (widths : List ℕ) : Prop where
  map_outputs : p.layers.map PackedLayer.outputs = widths
  inputDimension_eq : p.inputDimension = inputs
  isChain : p.layers.IsChain fun l l' => l.outputs = l'.inputs
  length_weights : ∀ l ∈ p.layers, l.weights.length = l.inputs * l.outputs
  length_biases : ∀ l ∈ p.layers, l.biases.length = l.outputs

/-- What reaches the layer at a place. -/
def reaching (p : PackedProjection) (v : Embedding) (k : Nat) : List Float :=
  (p.layers.take k).foldl (fun x layer => layer.apply x) (v.components.map widen)

end PackedProjection

namespace Projection

variable {inputs : ℕ} {widths : List ℕ} {p : Projection} {c : ProjectionForm} {v : Embedding}

theorem packed_drawLayers (inputs : ℕ) (widths : List ℕ) (s : Random.Stream) :
    PackedProjection.drawLayers inputs widths s =
      (drawLayers inputs widths s).map Layer.packed := by
  induction widths generalizing inputs s with
  | nil => rfl
  | cons width later ih =>
    rw [PackedProjection.drawLayers, drawLayers_cons, List.map_cons, Layer.packed_drawn, ← ih]

/-- A packed projection is drawn whenever one with rows is, and is its packed form. -/
theorem packed_seeded (inputs : ℕ) (c : ProjectionForm) :
    PackedProjection.seeded inputs c = (seeded inputs c).map packed := by
  rw [PackedProjection.seeded, seeded]
  cases c.validate with
  | error e => rfl
  | ok _ =>
    by_cases hinputs : inputs = 0
    · simp only [hinputs]
      rfl
    · simp only [hinputs, packed_drawLayers]
      rfl

/-- Packed layers compute what layers with rows do, one after the other. -/
theorem foldl_packed {layers : List Layer}
    (h : ∀ l ∈ layers, 0 < l.inputs ∧ l.HasShape l.inputs l.outputs) (x : List Float) :
    (layers.map Layer.packed).foldl (fun x l => l.apply x) x =
      layers.foldl (fun x l => l.apply x) x := by
  rw [List.foldl_map]
  exact List.foldl_ext _ _ _ fun x l hl => Layer.apply_packed (h l hl).1 (h l hl).2 x

namespace Stacked

theorem fits_packed (h : Stacked inputs widths p.layers) (hp : p.layers ≠ []) :
    p.packed.Fits inputs widths where
  map_outputs := by
    rw [packed, List.map_map]
    exact h.map_outputs
  inputDimension_eq := by
    obtain ⟨l, later, hlayers⟩ := List.exists_cons_of_ne_nil hp
    rw [hlayers] at h
    rw [PackedProjection.inputDimension, packed, hlayers]
    exact h.inputs_eq_of_cons
  isChain := (List.isChain_map Layer.packed).2 h.isChain
  length_weights := by
    refine List.forall_mem_map.2 fun l hl => ?_
    have hshape := (h.hasShape l hl).2
    rw [Layer.packed, length_flatten_eq_mul hshape.length_row, hshape.length_weights, Nat.mul_comm]
  length_biases := List.forall_mem_map.2 fun _ _ => rfl

theorem project_packed (h : Stacked inputs widths p.layers) (v : Embedding) :
    p.packed.project v = p.project v := by
  rw [PackedProjection.project, packed, foldl_packed h.hasShape, project]

/-- What reaches a layer is all paired. -/
theorem pairsAll_reaching (h : Stacked inputs widths p.layers) (hv : v.dimension = inputs) {k : ℕ}
    {l : PackedLayer} (hl : p.packed.layers[k]? = some l) :
    l.PairsAll (p.packed.reaching v k) := by
  rw [packed, List.getElem?_map, Option.map_eq_some_iff] at hl
  obtain ⟨l, hl, rfl⟩ := hl
  obtain ⟨hpos, hshape⟩ := h.hasShape l (List.mem_of_getElem? hl)
  have hreaching : p.packed.reaching v k =
      (p.layers.take k).foldl (fun x l => l.apply x) (v.components.map widen) := by
    rw [PackedProjection.reaching, packed, ← List.map_take]
    exact foldl_packed (fun l hl => h.hasShape l (List.mem_of_mem_take hl)) _
  rw [hreaching]
  exact Layer.pairsAll_packed hpos hshape
    (h.length_foldl_take ((List.length_map _).trans hv) hl)

theorem dimension_project (h : Stacked inputs widths p.layers) (hv : v.dimension = inputs) :
    (p.project v).dimension = widths.getLastD inputs := by
  rw [Embedding.dimension, project, List.length_map]
  exact h.length_foldl ((List.length_map _).trans hv)

end Stacked

/-- The last width of a form is that of its result. -/
theorem getLast?_widths (c : ProjectionForm) : c.widths.getLast? = some c.output.toNat := by
  rw [ProjectionForm.widths, List.map_append, List.map_singleton, List.getLast?_concat]

/-- For every form whose widths are positive and every number of inputs but zero there is a
    projection, with a layer for each width. The layers fit together, and for an embedding with that
    number of components each of them pairs all it has with all that reaches it. So a result has as
    many components as the form says, and each of them is a number that is not below zero. -/
theorem exists_seeded_fits (hinputs : 1 ≤ inputs) (hwidths : ∀ width ∈ c.widths, 1 ≤ width) :
    ∃ p, seeded inputs c = .ok p ∧ PackedProjection.seeded inputs c = .ok p.packed ∧
      p.packed.layers.length = c.hidden.length + 1 ∧ p.packed.Fits inputs c.widths ∧
      p.packed.outputDimension = c.output.toNat ∧
      ∀ v : Embedding, v.dimension = inputs →
        (∀ (k : ℕ) (l : PackedLayer), p.packed.layers[k]? = some l →
          l.PairsAll (p.packed.reaching v k)) ∧
        p.packed.project v = p.project v ∧ (p.project v).dimension = c.output.toNat ∧
        ∀ a ∈ (p.project v).components, 0 ≤ a ∧ a.isNaN = false := by
  have hseeded := seeded_eq_ok (ProjectionForm.validate_eq_ok_iff.2 hwidths)
    (Nat.pos_iff_ne_zero.1 hinputs)
  have hstacked := stacked_drawLayers hinputs hwidths (.ofSeed c.seed)
  have hne : drawLayers inputs c.widths (.ofSeed c.seed) ≠ [] :=
    drawLayers_ne_nil (by simp [ProjectionForm.widths]) _
  generalize drawLayers inputs c.widths (.ofSeed c.seed) = layers at hseeded hstacked hne
  have hfits := hstacked.fits_packed (p := ⟨layers⟩) hne
  refine ⟨⟨layers⟩, hseeded, by rw [packed_seeded, hseeded]; rfl, ?_, hfits, ?_, fun v hv =>
    ⟨fun _ _ => hstacked.pairsAll_reaching (p := ⟨layers⟩) hv,
      hstacked.project_packed (p := ⟨layers⟩) v, ?_, fun a ha => ?_⟩⟩
  · have hlength := congrArg List.length hfits.map_outputs
    rw [List.length_map] at hlength
    rw [hlength]
    simp [ProjectionForm.widths]
  · rw [PackedProjection.outputDimension, ← List.getLast?_map, hfits.map_outputs, getLast?_widths]
    rfl
  · rw [hstacked.dimension_project (p := ⟨layers⟩) hv, List.getLastD_eq_getLast?, getLast?_widths]
    rfl
  · have hnonneg := nonnegative_project (p := ⟨layers⟩) hne v a ha
    exact ⟨hnonneg, (single_zero_le_iff.1 hnonneg).1⟩

/-- A narrow embedding whose components are no finite numbers is widened and narrowed again. -/
theorem exists_seeded_fits_widened :
    ∃ p, seeded 2 ⟨[5, 3], 4, 42⟩ = .ok p ∧ p.packed.Fits 2 [5, 3, 4] ∧
      (p.project ⟨[0 / 0, 1 / 0]⟩).dimension = 4 ∧
      ∀ a ∈ (p.project ⟨[0 / 0, 1 / 0]⟩).components, 0 ≤ a ∧ a.isNaN = false := by
  obtain ⟨p, hp, -, -, hfits, -, hproject⟩ :=
    exists_seeded_fits (c := ⟨[5, 3], 4, 42⟩) (show 1 ≤ 2 by decide) (by decide)
  obtain ⟨-, -, hdimension, hfeatures⟩ := hproject ⟨[0 / 0, 1 / 0]⟩ rfl
  exact ⟨p, hp, hfits, hdimension, hfeatures⟩

end Projection

end SchemaMatch

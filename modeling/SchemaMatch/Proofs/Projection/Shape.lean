import SchemaMatch.Proofs.Random.Stream
import SchemaMatch.Proofs.RowMajor
import SchemaMatch.Projection

/-!
# The shape of projections

The layers that are drawn for some widths are stacked (`Projection.Stacked`): each has a row of
weights and a bias for each of its outputs, each row has a weight for each of its inputs, and the
outputs of one layer are as many as the inputs of the next one. What reaches a layer then has the
length that the layer asks for (`Stacked.length_foldl_take`), whatever the weights are.
-/

namespace SchemaMatch

/-! ## Layers -/

namespace Layer

variable {inputs outputs : ℕ} {l : Layer}

theorem length_drawList (bound : Float) (count : ℕ) (s : Random.Stream) :
    (drawList bound count s).1.length = count := by
  rw [drawList, List.length_map, Random.Stream.length_take]

theorem drawRows_succ (bound : Float) (width count : ℕ) (s : Random.Stream) :
    drawRows bound width (count + 1) s =
      ((drawList bound width s).1 :: (drawRows bound width count (drawList bound width s).2).1,
        (drawRows bound width count (drawList bound width s).2).2) := rfl

theorem length_drawRows (bound : Float) (width count : ℕ) (s : Random.Stream) :
    (drawRows bound width count s).1.length = count := by
  induction count generalizing s with
  | zero => rfl
  | succ count ih => rw [drawRows_succ, List.length_cons, ih]

theorem length_of_mem_drawRows (bound : Float) (width count : ℕ) (s : Random.Stream) :
    ∀ row ∈ (drawRows bound width count s).1, row.length = width := by
  induction count generalizing s with
  | zero => exact fun _ h => absurd h List.not_mem_nil
  | succ count ih =>
    rw [drawRows_succ, List.forall_mem_cons]
    exact ⟨length_drawList bound width s, ih _⟩

/-- Whether a layer has the weights and the biases for some numbers of inputs and of outputs. -/
structure HasShape (l : Layer) (inputs outputs : ℕ) : Prop where
  inputs_eq : l.inputs = inputs
  length_weights : l.weights.length = outputs
  length_row : ∀ row ∈ l.weights, row.length = inputs
  length_biases : l.biases.length = outputs

theorem hasShape_drawn (inputs outputs : ℕ) (s : Random.Stream) :
    (drawn inputs outputs s).1.HasShape inputs outputs where
  inputs_eq := rfl
  length_weights := length_drawRows _ _ _ _
  length_row := length_of_mem_drawRows _ _ _ _
  length_biases := length_drawList _ _ _

theorem HasShape.outputs_eq (h : l.HasShape inputs outputs) : l.outputs = outputs :=
  h.length_biases

theorem HasShape.length_apply (h : l.HasShape inputs outputs) (x : List Float) :
    (l.apply x).length = outputs := by
  rw [apply, List.length_zipWith, h.length_weights, h.length_biases, Nat.min_self]

end Layer

/-! ## Stacks -/

/-- The form is valid exactly if all layers have a width. -/
theorem ProjectionForm.validate_eq_ok_iff {c : ProjectionForm} :
    c.validate = .ok () ↔ ∀ width ∈ c.widths, 0 < width := by
  have hpos : ∀ width : UInt64, 0 < width.toNat ↔ width ≠ 0 := fun width => by
    rw [Nat.pos_iff_ne_zero, ne_eq, ne_eq, ← UInt64.toNat_inj]
    rfl
  rw [validate, widths, List.forall_mem_map, List.forall_mem_append, List.forall_mem_singleton]
  simp only [hpos]
  split
  · next h =>
    simp only [reduceCtorEq, false_iff, not_and, not_not]
    intro hhidden
    exact h.resolve_right fun hzero => hhidden 0 hzero rfl
  · next h =>
    rw [not_or] at h
    exact iff_of_true rfl ⟨fun width hwidth hzero => h.2 (hzero ▸ hwidth), h.1⟩

namespace Projection

/-- Whether layers of some widths stand on one another, the first one on a number of inputs. -/
inductive Stacked : ℕ → List ℕ → List Layer → Prop
  | nil {inputs : ℕ} : Stacked inputs [] []
  | cons {inputs width : ℕ} {widths : List ℕ} {l : Layer} {layers : List Layer} :
      0 < inputs → l.HasShape inputs width → Stacked width widths layers →
        Stacked inputs (width :: widths) (l :: layers)

variable {inputs : ℕ} {widths : List ℕ} {layers : List Layer}

theorem drawLayers_cons (inputs width : ℕ) (widths : List ℕ) (s : Random.Stream) :
    drawLayers inputs (width :: widths) s =
      (Layer.drawn inputs width s).1 :: drawLayers width widths (Layer.drawn inputs width s).2 :=
  rfl

theorem stacked_drawLayers (hinputs : 0 < inputs) (hwidths : ∀ width ∈ widths, 0 < width)
    (s : Random.Stream) : Stacked inputs widths (drawLayers inputs widths s) := by
  induction widths generalizing inputs s with
  | nil => exact .nil
  | cons width later ih =>
    rw [List.forall_mem_cons] at hwidths
    rw [drawLayers_cons]
    exact .cons hinputs (Layer.hasShape_drawn inputs width s) (ih hwidths.1 hwidths.2 _)

namespace Stacked

theorem map_outputs (h : Stacked inputs widths layers) : layers.map Layer.outputs = widths := by
  induction h with
  | nil => rfl
  | cons _ hshape _ ih => rw [List.map_cons, hshape.outputs_eq, ih]

theorem inputs_eq_of_cons {l : Layer} (h : Stacked inputs widths (l :: layers)) :
    l.inputs = inputs := by
  cases h with
  | cons _ hshape _ => exact hshape.inputs_eq

/-- The outputs of a layer are as many as the inputs of the one on it. -/
theorem isChain (h : Stacked inputs widths layers) :
    layers.IsChain fun l l' => l.outputs = l'.inputs := by
  induction h with
  | nil => exact .nil
  | @cons _ _ _ _ layers _ hshape hlater ih =>
    cases layers with
    | nil => exact .singleton _
    | cons next _ =>
      exact .cons_cons (hshape.outputs_eq.trans hlater.inputs_eq_of_cons.symm) ih

/-- A layer of a stack has some inputs and the weights and biases for them. -/
theorem hasShape (h : Stacked inputs widths layers) :
    ∀ l ∈ layers, 0 < l.inputs ∧ l.HasShape l.inputs l.outputs := by
  induction h with
  | nil => exact fun _ h => absurd h List.not_mem_nil
  | cons hpos hshape _ ih =>
    refine List.forall_mem_cons.2 ⟨?_, ih⟩
    rw [hshape.inputs_eq, hshape.outputs_eq]
    exact ⟨hpos, hshape⟩

/-- What reaches a layer has as many numbers as the layer has inputs. -/
theorem length_foldl_take (h : Stacked inputs widths layers) {x : List Float}
    (hx : x.length = inputs) {k : ℕ} {l : Layer} (hl : layers[k]? = some l) :
    ((layers.take k).foldl (fun x l => l.apply x) x).length = l.inputs := by
  induction h generalizing x k with
  | nil => cases hl
  | cons _ hshape _ ih =>
    cases k with
    | zero =>
      obtain rfl := Option.some.inj hl
      exact hx.trans hshape.inputs_eq.symm
    | succ k => exact ih (hshape.length_apply x) hl

/-- What comes out of a stack has as many numbers as its last width says. -/
theorem length_foldl (h : Stacked inputs widths layers) {x : List Float} (hx : x.length = inputs) :
    (layers.foldl (fun x l => l.apply x) x).length = widths.getLastD inputs := by
  induction h generalizing x with
  | nil => exact hx
  | @cons _ width _ _ _ _ hshape _ ih =>
    rw [List.foldl_cons, ih (hshape.length_apply x), List.getLastD_cons]

end Stacked

end Projection

end SchemaMatch

import SchemaMatch.Projection
import SchemaMatch.RowMajor

/-!
# Packed projections

A packed layer keeps its weights in one list, those of one output after those of another, beside the
number of its inputs and that of its outputs. To be applied it cuts the list into pieces, one for
each output, and pairs each piece with a bias and its weights with the inputs. Its type ties none of
the lengths together, and whatever has no partner is left out.
-/

namespace SchemaMatch

/-- A dense layer, the weights of its outputs one after the other in one list. -/
structure PackedLayer where
  /-- The number of inputs. -/
  inputs : Nat
  /-- The number of outputs. -/
  outputs : Nat
  /-- The weights of the inputs for the first output, then those for the second one, and so on. -/
  weights : List Float
  /-- The bias of each output. -/
  biases : List Float

namespace PackedLayer

/-- The layer that is drawn next: all of its weights, and then its biases. -/
def drawn (inputs outputs : Nat) (s : Random.Stream) : PackedLayer × Random.Stream :=
  let (weights, s) := Layer.drawList (Layer.bound inputs) (inputs * outputs) s
  let (biases, s) := Layer.drawList (Layer.bound inputs) outputs s
  (⟨inputs, outputs, weights, biases⟩, s)

/-- The outputs for some inputs. -/
def apply (l : PackedLayer) (inputs : List Float) : List Float :=
  (pieces l.inputs l.weights).zipWith
    (fun row bias => Layer.cutOff (Layer.weightedFrom 0 row inputs + bias)) l.biases

end PackedLayer

/-- A stack of packed layers. -/
structure PackedProjection where
  layers : List PackedLayer

namespace PackedProjection

/-- The layers of the given widths that are drawn next, the first one for a number of inputs. -/
def drawLayers (inputs : Nat) : (widths : List Nat) → Random.Stream → List PackedLayer
  | [], _ => []
  | width :: later, s =>
    let (layer, s) := PackedLayer.drawn inputs width s
    layer :: drawLayers width later s

/-- The projection of a form for embeddings of a dimension. -/
def seeded (inputs : Nat) (c : ProjectionForm) : Except Error PackedProjection := do
  c.validate
  if inputs = 0 then throw (.invalidSettings .zeroInputWidth)
  return ⟨drawLayers inputs c.widths (.ofSeed c.seed)⟩

/-- The dimension of the embeddings that the projection takes. -/
def inputDimension (p : PackedProjection) : Nat := (p.layers.head?.map PackedLayer.inputs).getD 0

/-- The dimension of its results. -/
def outputDimension (p : PackedProjection) : Nat :=
  (p.layers.getLast?.map PackedLayer.outputs).getD 0

/-- The result for an embedding. -/
def project (p : PackedProjection) (v : Embedding) : Embedding :=
  ⟨(p.layers.foldl (fun x layer => layer.apply x) (v.components.map widen)).map narrow⟩

end PackedProjection

/-- A layer, its weights packed. -/
def Layer.packed (l : Layer) : PackedLayer := ⟨l.inputs, l.outputs, l.weights.flatten, l.biases⟩

/-- A projection, its layers packed. -/
def Projection.packed (p : Projection) : PackedProjection := ⟨p.layers.map Layer.packed⟩

end SchemaMatch

import SchemaMatch.Embedding
import SchemaMatch.Error
import SchemaMatch.Json.Record
import SchemaMatch.Random.ChaCha

/-!
# Projections

A projection takes an embedding through a stack of dense layers, each followed by cutting off what
is below zero. Its weights are drawn once from a seeded stream, layer after layer, in each layer the
weights of one output after those of another and then all biases, evenly from an interval around
zero that is the narrower the more inputs there are. They fit no data: a projection is an arbitrary
fixed map. It computes in double precision and narrows only its result.
-/

namespace SchemaMatch

/-- The form of a projection. -/
structure ProjectionForm where
  /-- The widths of the hidden layers, in order. -/
  hidden : List UInt64
  /-- The width of the result. -/
  output : UInt64
  /-- The seed of the weights. -/
  seed : UInt64
  deriving DecidableEq

namespace ProjectionForm

/-- The form that is used unless another is given. -/
def standard : ProjectionForm := ⟨[512, 256], 128, 42⟩

/-- Every layer must have a width. -/
def validate (c : ProjectionForm) : Except Error Unit :=
  if c.output = 0 ∨ 0 ∈ c.hidden then .error (.invalidSettings .zeroLayerWidth) else .ok ()

/-- The widths of all layers, in order. -/
def widths (c : ProjectionForm) : List Nat :=
  (c.hidden ++ [c.output]).map (·.toNat)

open Json in
/-- The fields of the form, each with its standard value when absent. -/
def record : Record ProjectionForm where
  title := "ProjectionConfig"
  fields :=
    [ Record.field "hidden" .defaulted (Decoder.list (Decoder.natural "usize"))
        fun c hidden => { c with hidden },
      Record.field "output" .defaulted (Decoder.natural "usize") fun c output => { c with output },
      Record.field "seed" .defaulted (Decoder.natural "u64") fun c seed => { c with seed } ]
  blank := standard

/-- The JSON form of the form of a projection. -/
def toJson (c : ProjectionForm) : Json.Value :=
  .object
    [ ("hidden", .array (c.hidden.map .ofNatural)), ("output", .ofNatural c.output),
      ("seed", .ofNatural c.seed) ]

end ProjectionForm

/-! ## Layers -/

/-- A dense layer: for each output, the weights of the inputs and a bias. -/
structure Layer where
  /-- The number of inputs. -/
  inputs : Nat
  /-- The weights of the inputs, for each output. -/
  weights : List (List Float)
  /-- The bias of each output. -/
  biases : List Float

namespace Layer

/-- The number of outputs. -/
def outputs (l : Layer) : Nat := l.biases.length

/-- A draw spread evenly over the interval from `-bound` to `bound`: its upper bits become the
    fraction of a number between one and two. -/
def spread (bound : Float) (draw : UInt64) : Float :=
  let unit := Float.ofBits ((0x3FF0000000000000 : UInt64) ||| (draw >>> 12)) - 1
  unit * (bound - -bound) + -bound

/-- The bound of the weights of a layer: one over the square root of the number of inputs. -/
def bound (inputs : Nat) : Float :=
  1 / (inputs.toUInt64.toFloat).sqrt

/-- The next numbers of a stream, spread over an interval. -/
def drawList (bound : Float) (count : Nat) (s : Random.Stream) : List Float × Random.Stream :=
  let (draws, s) := s.take count
  (draws.map (spread bound), s)

/-- The next rows of numbers of a stream. -/
def drawRows (bound : Float) (width : Nat) :
    (count : Nat) → Random.Stream → List (List Float) × Random.Stream
  | 0, s => ([], s)
  | count + 1, s =>
    let (row, s) := drawList bound width s
    let (rows, s) := drawRows bound width count s
    (row :: rows, s)

/-- The layer that is drawn next. -/
def drawn (inputs outputs : Nat) (s : Random.Stream) : Layer × Random.Stream :=
  let (weights, s) := drawRows (bound inputs) inputs outputs s
  let (biases, s) := drawList (bound inputs) outputs s
  (⟨inputs, weights, biases⟩, s)

/-- Goes on with a sum of weighted inputs. -/
def weightedFrom (sum : Float) : List Float → List Float → Float
  | w :: ws, x :: xs => weightedFrom (sum + w * x) ws xs
  | _, _ => sum

/-- The number, or zero if it is not above zero. -/
def cutOff (x : Float) : Float :=
  if 0 < x then x else 0

/-- The outputs for some inputs. -/
def apply (l : Layer) (inputs : List Float) : List Float :=
  l.weights.zipWith (fun row bias => cutOff (weightedFrom 0 row inputs + bias)) l.biases

end Layer

/-! ## Stacks -/

/-- A stack of layers. -/
structure Projection where
  layers : List Layer

namespace Projection

/-- The layers of the given widths that are drawn next, the first one for a number of inputs. -/
def drawLayers (inputs : Nat) : (widths : List Nat) → Random.Stream → List Layer
  | [], _ => []
  | width :: later, s =>
    let (layer, s) := Layer.drawn inputs width s
    layer :: drawLayers width later s

/-- The projection of a form for embeddings of a dimension. -/
def seeded (inputs : Nat) (c : ProjectionForm) : Except Error Projection := do
  c.validate
  if inputs = 0 then throw (.invalidSettings .zeroInputWidth)
  return ⟨drawLayers inputs c.widths (.ofSeed c.seed)⟩

/-- The dimension of the embeddings that the projection takes. -/
def inputDimension (p : Projection) : Nat := (p.layers.head?.map Layer.inputs).getD 0

/-- The dimension of its results. -/
def outputDimension (p : Projection) : Nat := (p.layers.getLast?.map Layer.outputs).getD 0

/-- The result for an embedding. -/
def project (p : Projection) (v : Embedding) : Embedding :=
  ⟨(p.layers.foldl (fun x layer => layer.apply x) (v.components.map widen)).map narrow⟩

end Projection

end SchemaMatch

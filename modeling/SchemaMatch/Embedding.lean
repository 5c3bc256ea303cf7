import SchemaMatch.Json.Reader.Collection
import SchemaMatch.Json.Value
import SchemaMatch.Precision

/-!
# Embeddings

An embedding is a list of single-precision components. All that is computed from embeddings is
computed in double precision: the scalar product (`dot`), which keeps one sum for the products at
even places and one for those at odd places (`splitSum`), the norm, and the cosine similarity, which
lies between `-1` and `1` by force and is `0` where there is no angle.
-/

namespace SchemaMatch

/-- The place of a text among others, as a vector of single-precision components. -/
structure Embedding where
  components : List Float32
  deriving Inhabited

namespace Embedding

/-- The number of components. -/
def dimension (v : Embedding) : Nat := v.components.length

/-- Whether there are no components. -/
def isEmpty (v : Embedding) : Bool := v.components.isEmpty

/-- Whether all components are finite. -/
def isFinite (v : Embedding) : Bool := v.components.all (·.isFinite)

/-- Whether two embeddings have equal components, as numbers. -/
def same (v w : Embedding) : Bool := v.components == w.components

/-- Goes on with the sums of the terms at even and at odd places, and adds the two at the end. It
    makes no difference where addition is exact. -/
@[specialize] def splitSum {α : Type} [Add α] (even odd : α) : List α → α
  | a :: b :: later => splitSum (even + a) (odd + b) later
  | [a] => (even + a) + odd
  | [] => even + odd

/-- The products of the components of two embeddings. -/
def products (v w : List Float32) : List Float :=
  v.zipWith (fun a b => widen a * widen b) w

/-- The scalar product of two lists of components of one length. -/
def dot (v w : List Float32) : Float :=
  splitSum 0 0 (products v w)

/-- The Euclidean norm. -/
def norm (v : Embedding) : Float :=
  (dot v.components v.components).sqrt

/-- The number in the interval from `-1` to `1` that is nearest to a number. -/
def clamp (x : Float) : Float :=
  if x < -1 then -1 else if 1 < x then 1 else x

/-- The cosine of the angle between two embeddings. -/
def cosine (v w : Embedding) : Float :=
  if v.dimension ≠ w.dimension then 0
  else if v.norm == 0 ∨ w.norm == 0 then 0
  else clamp (dot v.components w.components / (v.norm * w.norm))

/-- The least norm, itself excluded, of an embedding that can be brought to length one. -/
def leastNorm : Float := Float.ofBits ((1023 - 23 : UInt64) <<< 52)

/-- The embedding brought to length one, unless it is too short. -/
def normalized (v : Embedding) : Embedding :=
  let length := v.norm
  if leastNorm < length then ⟨v.components.map fun x => narrow (widen x / length)⟩ else v

/-- Reads an embedding from an array of numbers. -/
def decoder : Json.Decoder Embedding := fun depth => do
  return ⟨← Json.Decoder.list Json.Decoder.single depth⟩

/-- The JSON form of an embedding. -/
def toJson (v : Embedding) : Json.Value :=
  .array (v.components.map fun x => .number (.single x))

end Embedding

end SchemaMatch

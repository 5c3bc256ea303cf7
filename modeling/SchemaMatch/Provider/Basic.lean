import SchemaMatch.Embedding
import SchemaMatch.Error
import SchemaMatch.Json.Record

/-!
# Providers of embeddings

A provider turns texts into embeddings, a batch at a time, and says what it is. It answers in a
monad: a provider that only computes answers in any, one that asks a service in that of the service.
-/

namespace SchemaMatch

/-! ## Devices -/

/-- What a model runs on. It makes no difference to the embeddings. -/
inductive Device
  | cpu
  | accelerator
  /-- The accelerator where there is one. -/
  | auto
  deriving DecidableEq

namespace Device

/-- The name of a device. -/
def name : Device → String
  | .cpu => "cpu"
  | .accelerator => "accelerator"
  | .auto => "auto"

/-- The devices under their names. -/
def table : List (String × Device) :=
  [cpu, accelerator, auto].map fun d => (d.name, d)

/-- The device that a name stands for. -/
def ofName (text : String) : Except UnknownName Device :=
  lookupName "device" "cpu, accelerator or auto"
    (table ++ [("gpu", accelerator), ("cuda", accelerator)]) text

/-- The device that is used, given whether there is an accelerator. -/
def resolve (supported : Bool) : Device → Device
  | .auto => if supported then .accelerator else .cpu
  | other => other

/-- Reads a device. -/
def decoder : Json.Decoder Device := .named table

/-- The JSON form of a device. -/
def toJson (d : Device) : Json.Value := .string d.name

end Device

/-! ## Providers -/

/-- What a provider is. -/
structure ProviderIdentity where
  /-- The kind of provider. -/
  name : String
  /-- The model that it embeds with. -/
  model : String
  /-- The dimension of its embeddings, where it is known beforehand. -/
  dimension : Option UInt64
  /-- The device that it was set up for. -/
  device : Device

/-- The JSON form of what a provider is. -/
def ProviderIdentity.toJson (i : ProviderIdentity) : Json.Value :=
  .object
    [ ("name", .string i.name), ("model", .string i.model),
      ("dimension", .ofOption .ofNatural i.dimension), ("device", i.device.toJson) ]

/-- Turns texts into embeddings. -/
structure Provider (m : Type → Type) where
  /-- What the provider is. -/
  info : ProviderIdentity
  /-- The embeddings of a batch of texts. -/
  embed : List String → m (Except Error (List Embedding))

end SchemaMatch

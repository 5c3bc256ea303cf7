import SchemaMatch.Provider.Hashing
import SchemaMatch.Provider.Remote

/-!
# Settings of providers

Which provider a run uses, and how it is set up. A text may leave out any of these settings.
-/

namespace SchemaMatch

/-- The kinds of provider. -/
inductive ProviderKind
  | hashing
  | http
  deriving DecidableEq

namespace ProviderKind

/-- The name of a kind. -/
def name : ProviderKind → String
  | .hashing => "hashing"
  | .http => "http"

/-- The kinds under their names. -/
def table : List (String × ProviderKind) :=
  [hashing, http].map fun k => (k.name, k)

/-- The kind that a name stands for. -/
def ofName (text : String) : Except UnknownName ProviderKind :=
  lookupName "provider" "hashing or http" table text

/-- Reads a kind. -/
def decoder : Json.Decoder ProviderKind := .named table

/-- The JSON form of a kind. -/
def toJson (k : ProviderKind) : Json.Value := .string k.name

end ProviderKind

/-- The stock model for plain cosine scores. -/
def cosineModel : String := "sentence-transformers/stsb-roberta-large"

/-- The stock model for scores of projections. -/
def projectedModel : String := "bert-base-nli-mean-tokens"

/-- The settings of the provider. -/
structure ProviderSettings where
  kind : ProviderKind
  model : String
  device : Device
  /-- The dimension of the hashing embedder. -/
  dimension : UInt64
  /-- Where the service of the http embedder is. -/
  endpoint : Option String
  format : Dialect
  /-- The value of the `Authorization` header. -/
  authHeader : Option String
  /-- How long to wait for the service. -/
  timeoutSecs : UInt64
  deriving DecidableEq

namespace ProviderSettings

/-- The settings that are used unless others are given. -/
def standard : ProviderSettings where
  kind := .hashing
  model := cosineModel
  device := .auto
  dimension := HashEmbedder.standardDimension
  endpoint := none
  format := .openai
  authHeader := none
  timeoutSecs := 60

/-- The settings of a hashing embedder. -/
def hashing (dimension : UInt64) : ProviderSettings := { standard with dimension }

/-- The settings of an http embedder. -/
def http (endpoint model : String) : ProviderSettings :=
  { standard with kind := .http, model, endpoint := some endpoint }

open Json in
/-- The fields of the settings. -/
def record : Record ProviderSettings where
  title := "EmbedderConfig"
  fields :=
    [ Record.field "provider" .defaulted ProviderKind.decoder
        fun c kind => { c with kind },
      Record.field "model" .defaulted Decoder.string fun c model => { c with model },
      Record.field "device" .defaulted Device.decoder fun c device => { c with device },
      Record.field "dimension" .defaulted (Decoder.natural "usize")
        fun c dimension => { c with dimension },
      Record.field "endpoint" .defaulted (Decoder.optional Decoder.string)
        fun c endpoint => { c with endpoint },
      Record.field "format" .defaulted Dialect.decoder fun c format => { c with format },
      Record.field "authHeader" .defaulted (Decoder.optional Decoder.string)
        fun c authHeader => { c with authHeader },
      Record.field "timeoutSecs" .defaulted (Decoder.natural "u64")
        fun c timeoutSecs => { c with timeoutSecs } ]
  blank := standard

/-- The JSON member of a text, unless it is absent. -/
def optionalMember (name : String) (text : Option String) : List (String × Json.Value) :=
  (text.map fun text => (name, Json.Value.string text)).toList

/-- The JSON form of the settings. Texts that are absent are left out. -/
def toJson (c : ProviderSettings) : Json.Value :=
  .object <|
    [ ("provider", c.kind.toJson), ("model", .string c.model), ("device", c.device.toJson),
      ("dimension", .ofNatural c.dimension) ]
    ++ optionalMember "endpoint" c.endpoint
    ++ [("format", c.format.toJson)]
    ++ optionalMember "authHeader" c.authHeader
    ++ [("timeoutSecs", .ofNatural c.timeoutSecs)]

/-- The provider of the settings, which reaches its service, if it has one, by a transport. -/
def build {m : Type → Type} [Monad m] (transport : Transport m) (c : ProviderSettings) :
    Except Error (Provider m) :=
  match c.kind with
  | .hashing => (HashEmbedder.ofDimension c.dimension).map HashEmbedder.provider
  | .http =>
    match c.endpoint with
    | none => .error (.invalidSettings .endpointMissing)
    | some endpoint =>
      if c.timeoutSecs = 0 then .error (.invalidSettings .zeroTimeout)
      else
        .ok (RemoteEmbedder.provider transport
          ⟨endpoint, c.model, c.format, c.authHeader, c.device⟩)

end ProviderSettings

end SchemaMatch

import SchemaMatch.Settings.Provider
import SchemaMatch.Settings.Matching

/-!
# Settings of a run

The settings of the provider and of the matcher, read from a file if there is one, and then
overridden one by one. To override the strategy brings the preset of the new one, but leaves the
form of the projections alone; and where the model is one of the two stock models and is not
overridden itself, it becomes the stock model of the new strategy.
-/

namespace SchemaMatch

/-- All settings of a run. -/
structure Settings where
  provider : ProviderSettings
  matching : MatchingSettings

namespace Settings

/-- The settings that are used unless others are given. -/
def standard : Settings := ⟨.standard, .standard⟩

open Json in
/-- The fields of the settings. -/
def record : Record Settings where
  title := "AppConfig"
  fields :=
    [ Record.field "embedder" .defaulted ProviderSettings.record.decoder
        fun c provider => { c with provider },
      Record.field "recommender" .defaulted MatchingSettings.decoder
        fun c matching => { c with matching } ]
  blank := standard

/-- The JSON form of the settings. -/
def toJson (c : Settings) : Json.Value :=
  .object [("embedder", c.provider.toJson), ("recommender", c.matching.toJson)]

/-- Two settings are the same when all are equal, the thresholds as numbers. -/
instance : BEq Settings :=
  ⟨fun c d => c.provider = d.provider && c.matching == d.matching⟩

/-- The settings in a text, or why it cannot be read. -/
def ofText? (text : String) : Except SettingsFault Settings :=
  let bytes := Text.bytes text
  (record.decoder.decode bytes).mapError fun fault => .unreadable (fault.message)

/-- The settings in a text. -/
def ofText (text : String) : Except Error Settings :=
  (ofText? text).mapError .invalidSettings

/-- The settings in a file of the given path and content. -/
def ofFile (path : String) (content : Except IoFault (List UInt8)) : Except Error Settings := do
  let bytes ← content.mapError .io
  match Text.ofBytes? bytes with
  | none => throw (.io .notUtf8)
  | some text => (ofText? text).mapError fun fault => .invalidSettings (.inFile path fault)

end Settings

/-! ## Overrides -/

/-- Settings given for one run. What is absent leaves the setting alone. -/
structure Overrides where
  strategy : Option Strategy
  threshold : Option Float
  topK : Option UInt64
  seed : Option UInt64
  provider : Option ProviderKind
  model : Option String
  endpoint : Option String
  format : Option Dialect
  device : Option Device
  dimension : Option UInt64

/-- No overrides. -/
def Overrides.none : Overrides :=
  ⟨.none, .none, .none, .none, .none, .none, .none, .none, .none, .none⟩

/-- The stock model of a strategy in place of that of the other one. -/
def stockModel (strategy : Strategy) (model : String) : String :=
  match strategy with
  | .projected => if model = cosineModel then projectedModel else model
  | .cosine => if model = projectedModel then cosineModel else model

namespace Settings

/-- The settings with the preset of another strategy. -/
def withStrategy (c : Settings) (strategy : Strategy) (model : Option String) : Settings where
  provider :=
    if model.isNone then
      { c.provider with model := stockModel strategy c.provider.model }
    else c.provider
  matching :=
    { MatchingSettings.preset strategy with projection := c.matching.projection }

/-- The settings with another threshold. -/
def withThreshold (c : Settings) (threshold : Float) : Settings :=
  { c with matching := { c.matching with threshold } }

/-- The settings with another number of candidates. -/
def withTopK (c : Settings) (topK : TopK) : Settings :=
  { c with matching := { c.matching with topK := some topK } }

/-- The settings with another seed of the projections. -/
def withSeed (c : Settings) (seed : UInt64) : Settings :=
  { c with
    matching := { c.matching with projection := { c.matching.projection with seed } } }

/-- The settings with the overrides of the provider. -/
def withProvider (c : Settings) (o : Overrides) : Settings :=
  let e := c.provider
  { c with
    provider :=
      { e with
        kind := o.provider.getD e.kind
        model := o.model.getD e.model
        endpoint := o.endpoint.or e.endpoint
        format := o.format.getD e.format
        device := o.device.getD e.device
        dimension := o.dimension.getD e.dimension } }

/-- Overrides settings one by one and checks the outcome, and gives the settings as far as they were
    overridden. A number of candidates of zero stops the overriding where it stands. -/
def apply (c : Settings) (o : Overrides) : Except Error Unit × Settings :=
  let c := (o.strategy.map fun strategy => c.withStrategy strategy o.model).getD c
  let c := (o.threshold.map c.withThreshold).getD c
  match o.topK with
  | .none => finish c
  | some count =>
    if h : count ≠ 0 then finish (c.withTopK ⟨count, h⟩)
    else (.error (.invalidSettings .zeroTopK), c)
where
  /-- Overrides what follows the number of candidates. -/
  finish (c : Settings) : Except Error Unit × Settings :=
    let c := (o.seed.map c.withSeed).getD c
    let c := c.withProvider o
    (c.matching.validate, c)

/-- The settings with overrides. -/
def overridden (c : Settings) (o : Overrides) : Except Error Settings :=
  let (outcome, c) := c.apply o
  outcome.map fun _ => c

end Settings

end SchemaMatch

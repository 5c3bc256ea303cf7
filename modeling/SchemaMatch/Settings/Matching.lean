import SchemaMatch.Selection

/-!
# Settings of matchers

A strategy of scoring comes with a preset: its own threshold and number of candidates. A text may
leave out any setting; what it leaves out is taken from the preset of the strategy that it names,
wherever it names it. A number of candidates that is `null` is not left out: it asks for the best
column only.
-/

namespace SchemaMatch

/-- The ways of scoring. -/
inductive Strategy
  /-- By the embeddings themselves. -/
  | cosine
  /-- By projections of the embeddings. -/
  | projected
  deriving DecidableEq

namespace Strategy

/-- The name of a strategy. -/
def name : Strategy → String
  | .cosine => "cosine"
  | .projected => "projected"

/-- The strategies under their names. -/
def table : List (String × Strategy) :=
  [cosine, projected].map fun s => (s.name, s)

/-- The strategy that a name stands for. -/
def ofName (text : String) : Except UnknownName Strategy :=
  lookupName "strategy" "cosine or projected" table text

/-- Reads a strategy. -/
def decoder : Json.Decoder Strategy := .named table

/-- The JSON form of a strategy. -/
def toJson (s : Strategy) : Json.Value := .string s.name

end Strategy

/-- The settings of a matcher. -/
structure MatchingSettings where
  strategy : Strategy
  /-- The least score of a recommendation. -/
  threshold : Float
  /-- The number of best API methods considered for a field, or only the best one. -/
  topK : Option TopK
  /-- The form of the projections. -/
  projection : ProjectionForm

/-- The settings that a text gives. -/
structure GivenSettings where
  strategy : Strategy
  threshold : Option Float
  /-- Absent if the text does not give it, and the absence of a number if it gives `null`. -/
  topK : Option (Option TopK)
  projection : Option ProjectionForm

open Json in
/-- The fields of the settings that a text may give. -/
def GivenSettings.record : Record GivenSettings where
  title := "PartialRecommenderConfig"
  fields :=
    [ Record.field "strategy" .defaulted Strategy.decoder fun p strategy => { p with strategy },
      Record.field "threshold" .optional (Decoder.optional Decoder.double)
        fun p threshold => { p with threshold },
      Record.field "topK" .defaulted (Decoder.optional TopK.decoder)
        fun p topK => { p with topK := some topK },
      Record.field "projection" .optional (Decoder.optional ProjectionForm.record.decoder)
        fun p projection => { p with projection } ]
  blank := ⟨.cosine, none, none, none⟩

namespace MatchingSettings

/-- The number of candidates of the preset for projections. -/
def presetTopK : TopK := ⟨3, by decide⟩

/-- The preset of a strategy. -/
def preset : Strategy → MatchingSettings
  | .cosine => ⟨.cosine, 0.75, none, .standard⟩
  | .projected => ⟨.projected, 0.80, some presetTopK, .standard⟩

/-- The settings that are used unless others are given. -/
def standard : MatchingSettings := preset .cosine

/-- The settings that a text gives, with the preset of its strategy for all others. -/
def ofPartial (p : GivenSettings) : MatchingSettings where
  strategy := p.strategy
  threshold := p.threshold.getD (preset p.strategy).threshold
  topK := p.topK.getD (preset p.strategy).topK
  projection := p.projection.getD (preset p.strategy).projection

/-- Reads settings. -/
def decoder : Json.Decoder MatchingSettings := fun depth => do
  return ofPartial (← GivenSettings.record.decoder depth)

/-- The JSON form of settings. -/
def toJson (c : MatchingSettings) : Json.Value :=
  .object
    [ ("strategy", c.strategy.toJson), ("threshold", .ofDouble c.threshold),
      ("topK", .ofOption TopK.toJson c.topK), ("projection", c.projection.toJson) ]

/-- Two settings are the same when all are equal, the thresholds as numbers. -/
instance : BEq MatchingSettings :=
  ⟨fun c d => c.strategy = d.strategy && c.threshold == d.threshold && c.topK = d.topK &&
    c.projection = d.projection⟩

/-- The threshold must be finite, and projections, if they are used, must have a form. -/
def validate (c : MatchingSettings) : Except Error Unit :=
  if ¬c.threshold.isFinite then .error (.invalidSettings (.threshold c.threshold))
  else
    match c.strategy with
    | .cosine => .ok ()
    | .projected => c.projection.validate

/-- Which candidates are selected. -/
def policy (c : MatchingSettings) : Policy :=
  ⟨c.threshold, c.topK⟩

/-- How pairs are scored. -/
def scoring (c : MatchingSettings) : Scoring :=
  match c.strategy with
  | .cosine => .cosine
  | .projected => .projected c.projection

end MatchingSettings

end SchemaMatch

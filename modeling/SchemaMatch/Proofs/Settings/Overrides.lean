import SchemaMatch.Matcher
import SchemaMatch.Settings

/-!
# Settings layer upon layer

Overrides are carried out one after the other, and two things can stop them: a number of candidates
of zero on the way, and the check of the outcome at the end. What they come to is told at once
(`Settings.overridden_eq_ok_iff`): each setting is the one that is given, or else that of the preset
of a given strategy, or else the one that was there before (`Settings.layered`).

From this it follows what overrides leave alone, that they can be repeated, and that two layers of
them are one, if the later one leaves the strategy alone: `Settings.overridden_layers`. A later
strategy would bring its preset, and so undo what the earlier layer has given.
-/

namespace SchemaMatch

/-- The stock model of a strategy. -/
def Strategy.model : Strategy → String
  | .cosine => cosineModel
  | .projected => projectedModel

namespace Overrides

/-- The number of candidates that is given, which must not be zero. -/
def givenTopK (o : Overrides) : Except Error (Option TopK) :=
  match o.topK with
  | .none => .ok .none
  | some count =>
    if h : count ≠ 0 then .ok (some ⟨count, h⟩) else .error (.invalidSettings .zeroTopK)

/-- The overrides of two layers, of which the later ones count where both give a setting. -/
def followedBy (o later : Overrides) : Overrides where
  strategy := later.strategy.or o.strategy
  threshold := later.threshold.or o.threshold
  topK := later.topK.or o.topK
  seed := later.seed.or o.seed
  provider := later.provider.or o.provider
  model := later.model.or o.model
  endpoint := later.endpoint.or o.endpoint
  format := later.format.or o.format
  device := later.device.or o.device
  dimension := later.dimension.or o.dimension

/-- Whether settings are as they are given. -/
structure HoldIn (o : Overrides) (d : Settings) : Prop where
  strategy : ∀ strategy ∈ o.strategy, d.matching.strategy = strategy
  threshold : ∀ threshold ∈ o.threshold, d.matching.threshold = threshold
  topK : ∀ count ∈ o.topK, d.matching.topK.map (·.val) = some count
  seed : ∀ seed ∈ o.seed, d.matching.projection.seed = seed
  provider : ∀ kind ∈ o.provider, d.provider.kind = kind
  model : ∀ model ∈ o.model, d.provider.model = model
  endpoint : ∀ endpoint ∈ o.endpoint, d.provider.endpoint = some endpoint
  format : ∀ format ∈ o.format, d.provider.format = format
  device : ∀ device ∈ o.device, d.provider.device = device
  dimension : ∀ dimension ∈ o.dimension, d.provider.dimension = dimension

/-- Whether settings that are not given are those of the preset, where a strategy is given. A stock
    model becomes that of the strategy, and any other model stays. -/
structure Presets (o : Overrides) (c d : Settings) (s : Strategy) : Prop where
  threshold : o.threshold = .none → d.matching.threshold = (MatchingSettings.preset s).threshold
  topK : o.topK = .none → d.matching.topK = (MatchingSettings.preset s).topK
  stock : o.model = .none → ∀ other : Strategy, c.provider.model = other.model →
    d.provider.model = s.model
  custom : o.model = .none → (∀ other : Strategy, c.provider.model ≠ other.model) →
    d.provider.model = c.provider.model

/-- Whether settings are as before that are neither given nor governed by a given strategy. -/
structure Spare (o : Overrides) (c d : Settings) : Prop where
  strategy : o.strategy = .none → d.matching.strategy = c.matching.strategy
  threshold : o.strategy = .none → o.threshold = .none →
    d.matching.threshold = c.matching.threshold
  topK : o.strategy = .none → o.topK = .none → d.matching.topK = c.matching.topK
  hidden : d.matching.projection.hidden = c.matching.projection.hidden
  output : d.matching.projection.output = c.matching.projection.output
  seed : o.seed = .none → d.matching.projection.seed = c.matching.projection.seed
  provider : o.provider = .none → d.provider.kind = c.provider.kind
  model : o.strategy = .none → o.model = .none → d.provider.model = c.provider.model
  endpoint : o.endpoint = .none → d.provider.endpoint = c.provider.endpoint
  format : o.format = .none → d.provider.format = c.provider.format
  device : o.device = .none → d.provider.device = c.provider.device
  dimension : o.dimension = .none → d.provider.dimension = c.provider.dimension
  authHeader : d.provider.authHeader = c.provider.authHeader
  timeoutSecs : d.provider.timeoutSecs = c.provider.timeoutSecs

end Overrides

/-- The number of candidates is the one that is given, if there is one. -/
theorem Overrides.givenTopK_eq_ok_iff {o : Overrides} {topK : Option TopK} :
    o.givenTopK = .ok topK ↔ o.topK = topK.map (·.val) := by
  rw [givenTopK]
  cases o.topK with
  | none => cases topK <;> simp
  | some count =>
    by_cases hcount : count ≠ 0
    · cases topK <;> simp [hcount, Subtype.ext_iff]
    · cases topK with
      | none => simp [hcount]
      | some k =>
        have hk : count ≠ k.val := fun e => hcount (e ▸ k.property)
        simp [hcount, hk]

theorem Overrides.givenTopK_followedBy {o later : Overrides} {topK : Option TopK}
    (h : o.givenTopK = .ok topK) :
    (o.followedBy later).givenTopK = later.givenTopK.map (·.or topK) := by
  rw [givenTopK] at h
  cases hlater : later.topK with
  | none => simpa [givenTopK, followedBy, hlater, Except.map] using h
  | some count =>
    by_cases hcount : count ≠ 0 <;> simp [givenTopK, followedBy, hlater, hcount, Except.map]

/-! ## Models -/

theorem stockModel_of_stock (s other : Strategy) : stockModel s other.model = s.model := by
  cases s <;> cases other <;> rfl

theorem stockModel_of_custom {s : Strategy} {model : String}
    (h : ∀ other : Strategy, model ≠ other.model) : stockModel s model = model := by
  cases s with
  | cosine => exact if_neg (h .projected)
  | projected => exact if_neg (h .cosine)

theorem stockModel_stockModel (s : Strategy) (model : String) :
    stockModel s (stockModel s model) = stockModel s model := by
  by_cases h : ∃ other : Strategy, model = other.model
  · obtain ⟨other, rfl⟩ := h
    rw [stockModel_of_stock, stockModel_of_stock]
  · have hcustom := stockModel_of_custom (s := s) (not_exists.1 h)
    rw [hcustom, hcustom]

/-- A matcher can be made with settings that are valid. -/
theorem Matcher.exists_ofSettings {m : Type → Type} {settings : MatchingSettings}
    (h : settings.validate = .ok ()) (provider : Provider m) :
    ∃ matcher, Matcher.ofSettings provider settings = .ok matcher := by
  refine ⟨⟨provider, settings, h⟩, ?_⟩
  rw [Matcher.ofSettings]
  split <;> simp_all

namespace Settings

variable {c d : Settings} {o : Overrides} {topK : Option TopK}

/-- The settings of a matcher before any of them is given: those of the preset of the strategy, if
    one is given, or else those that were there before. -/
def underlying (c : Settings) (o : Overrides) : MatchingSettings :=
  o.strategy.elim c.matching MatchingSettings.preset

/-- The settings that overrides come to, with the number of candidates that they give. -/
def layered (c : Settings) (o : Overrides) (topK : Option TopK) : Settings where
  provider :=
    { c.provider with
      kind := o.provider.getD c.provider.kind
      model := o.model.getD (o.strategy.elim c.provider.model (stockModel · c.provider.model))
      endpoint := o.endpoint.or c.provider.endpoint
      format := o.format.getD c.provider.format
      device := o.device.getD c.provider.device
      dimension := o.dimension.getD c.provider.dimension }
  matching :=
    { strategy := (c.underlying o).strategy
      threshold := o.threshold.getD (c.underlying o).threshold
      topK := topK.or (c.underlying o).topK
      projection :=
        { c.matching.projection with seed := o.seed.getD c.matching.projection.seed } }

/-- What is overridden before and behind the number of candidates, if it is not zero. -/
theorem finish_eq (c : Settings) (o : Overrides) :
    let before := (o.strategy.map fun strategy => c.withStrategy strategy o.model).getD c
    let before := (o.threshold.map before.withThreshold).getD before
    apply.finish o before = ((c.layered o none).matching.validate, c.layered o none) ∧
      ∀ k, apply.finish o (before.withTopK k) =
        ((c.layered o (some k)).matching.validate, c.layered o (some k)) := by
  -- Only what is given decides which way the overrides are carried out.
  obtain ⟨strategy, threshold, _, seed, _, model, _, _, _, _⟩ := o
  cases strategy <;> cases threshold <;> cases seed <;> cases model <;> exact ⟨rfl, fun _ => rfl⟩

/-- Settings are overridden as they are layered, if the number of candidates that is given is not
    zero and the outcome is valid. -/
theorem overridden_eq (c : Settings) (o : Overrides) :
    c.overridden o = o.givenTopK.bind fun topK =>
      (c.layered o topK).matching.validate.map fun _ => c.layered o topK := by
  obtain ⟨hnone, hsome⟩ := c.finish_eq o
  rw [overridden, apply, Overrides.givenTopK]
  cases o.topK with
  | none => simp only [hnone]; rfl
  | some count =>
    by_cases hcount : count ≠ 0
    · simp only [dif_pos hcount, hsome]; rfl
    · simp only [dif_neg hcount]; rfl

theorem overridden_eq_ok_iff :
    c.overridden o = .ok d ↔ ∃ topK, o.givenTopK = .ok topK ∧ d = c.layered o topK ∧
      d.matching.validate = .ok () := by
  rw [overridden_eq]
  cases o.givenTopK with
  | error e => simp [Except.bind]
  | ok topK =>
    cases hvalid : (c.layered o topK).matching.validate with
    | error e =>
      simp only [Except.bind, hvalid, Except.map, Except.ok.injEq, reduceCtorEq, false_iff]
      rintro ⟨_, rfl, rfl, h⟩
      exact absurd (hvalid.symm.trans h) (by simp)
    | ok u =>
      simp only [Except.bind, hvalid, Except.map, Except.ok.injEq]
      constructor
      · rintro rfl
        exact ⟨_, rfl, rfl, hvalid⟩
      · rintro ⟨_, rfl, rfl, -⟩
        rfl

/-! ## Layers -/

theorem holdIn_layered (h : o.givenTopK = .ok topK) : o.HoldIn (c.layered o topK) := by
  rw [Overrides.givenTopK_eq_ok_iff] at h
  constructor
  case topK =>
    intro count hcount
    rw [h, Option.mem_def, Option.map_eq_some_iff] at hcount
    obtain ⟨k, rfl, rfl⟩ := hcount
    rfl
  case strategy =>
    intro s hs
    rw [Option.mem_def] at hs
    cases s <;> simp [layered, underlying, hs, MatchingSettings.preset]
  all_goals
    intro value hvalue
    rw [Option.mem_def] at hvalue
    simp [layered, hvalue]

theorem presets_layered (h : o.givenTopK = .ok topK) {s : Strategy} (hs : o.strategy = some s) :
    o.Presets c (c.layered o topK) s := by
  rw [Overrides.givenTopK_eq_ok_iff] at h
  have hunderlying : c.underlying o = MatchingSettings.preset s := by simp [underlying, hs]
  constructor
  · intro hthreshold
    simp [layered, hunderlying, hthreshold]
  · intro hnone
    rw [hnone, eq_comm, Option.map_eq_none_iff] at h
    simp [layered, hunderlying, h]
  · intro hmodel other hother
    simp [layered, hmodel, hs, hother, stockModel_of_stock]
  · intro hmodel hcustom
    simp [layered, hmodel, hs, stockModel_of_custom hcustom]

theorem spare_layered (h : o.givenTopK = .ok topK) : o.Spare c (c.layered o topK) := by
  rw [Overrides.givenTopK_eq_ok_iff] at h
  constructor
  case topK =>
    intro hs hnone
    rw [hnone, eq_comm, Option.map_eq_none_iff] at h
    simp [layered, underlying, hs, h]
  case hidden => rfl
  case output => rfl
  case authHeader => rfl
  case timeoutSecs => rfl
  case strategy =>
    intro hs
    simp [layered, underlying, hs]
  case threshold =>
    intro hs hthreshold
    simp [layered, underlying, hs, hthreshold]
  case model =>
    intro hs hmodel
    simp [layered, hs, hmodel]
  all_goals
    intro hnone
    simp [layered, hnone]

/-- Layering the same once more changes nothing. -/
theorem layered_layered_self (c : Settings) (o : Overrides) (topK : Option TopK) :
    (c.layered o topK).layered o topK = c.layered o topK := by
  have hgetD : ∀ {α : Type} (given : Option α) (value : α),
      given.getD (given.getD value) = given.getD value := by
    intro α given value
    cases given <;> rfl
  have hor : ∀ {α : Type} (given value : Option α), given.or (given.or value) = given.or value := by
    intro α given value
    cases given <;> rfl
  obtain ⟨strategy, _, _, _, _, model, _, _, _, _⟩ := o
  cases strategy <;> cases model <;>
    simp [layered, underlying, hgetD, hor, stockModel_stockModel]

/-- Two layers are one if the later one leaves the strategy alone. -/
theorem layered_layered {later : Overrides} (hlater : later.strategy = none)
    (topK' : Option TopK) :
    (c.layered o topK).layered later topK' = c.layered (o.followedBy later) (topK'.or topK) := by
  simp [layered, underlying, Overrides.followedBy, hlater, Option.or_assoc, Option.getD_or]

/-! ## Overriding -/

/-- Settings are valid once they were overridden. -/
theorem validate_of_overridden (h : c.overridden o = .ok d) : d.matching.validate = .ok () := by
  obtain ⟨_, -, -, hvalid⟩ := overridden_eq_ok_iff.1 h
  exact hvalid

/-- Settings that were overridden are left alone by the same overrides. In them is everything that
    was given, and where a strategy was given its preset for what was not; all else is as it was;
    and a matcher can be made with them. Further overrides that leave the strategy alone come to the
    same as if both had been given at once, or fail with the same error. -/
theorem overridden_layers (h : c.overridden o = .ok d) :
    d.overridden o = .ok d ∧
      o.HoldIn d ∧
      (∀ s ∈ o.strategy, o.Presets c d s) ∧
      o.Spare c d ∧
      (∀ (m : Type → Type) (provider : Provider m),
        ∃ matcher, Matcher.ofSettings provider d.matching = .ok matcher) ∧
      ∀ later : Overrides, later.strategy = none →
        d.overridden later = c.overridden (o.followedBy later) := by
  obtain ⟨topK, htopK, rfl, hvalid⟩ := overridden_eq_ok_iff.1 h
  refine ⟨?_, holdIn_layered htopK, fun s hs => presets_layered htopK hs, spare_layered htopK,
    fun m provider => Matcher.exists_ofSettings hvalid provider, fun later hlater => ?_⟩
  · exact overridden_eq_ok_iff.2 ⟨topK, htopK, (layered_layered_self c o topK).symm, hvalid⟩
  · rw [overridden_eq, overridden_eq, Overrides.givenTopK_followedBy htopK]
    cases later.givenTopK with
    | error e => rfl
    | ok topK' => simp only [Except.bind, Except.map, layered_layered hlater]

/-- The other strategy, with a number of candidates but no threshold and no model of its own; and
    then both of these, but no strategy. -/
theorem overridden_layers_projected :
    let o := { Overrides.none with strategy := some .projected, topK := some 2, seed := some 7 }
    let later := { Overrides.none with threshold := some (-0.5), model := some "mine" }
    let d : Settings :=
      ⟨{ ProviderSettings.standard with model := projectedModel },
        ⟨.projected, 0.80, some ⟨2, by decide⟩, ⟨[512, 256], 128, 7⟩⟩⟩
    standard.overridden o = .ok d ∧ d.overridden o = .ok d ∧
      o.HoldIn d ∧ o.Presets standard d .projected ∧ o.Spare standard d ∧
      d.overridden later = standard.overridden (o.followedBy later) := by
  intro o later d
  have hvalid : d.matching.validate = .ok () := by
    have hfinite : d.matching.threshold.isFinite = true := by decide +kernel
    exact (if_neg (not_not_intro hfinite)).trans rfl
  have h : standard.overridden o = .ok d :=
    overridden_eq_ok_iff.2 ⟨some ⟨2, by decide⟩, rfl, rfl, hvalid⟩
  obtain ⟨hagain, hhold, hpresets, hspare, -, hlater⟩ := overridden_layers h
  exact ⟨h, hagain, hhold, hpresets _ rfl, hspare, hlater later rfl⟩

end Settings

end SchemaMatch

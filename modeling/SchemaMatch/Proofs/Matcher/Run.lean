import SchemaMatch.Matcher
import SchemaMatch.Proofs.Recommendations.Grouping
import SchemaMatch.Proofs.ScoreMatrix
import SchemaMatch.Proofs.Selection.Ranking
import SchemaMatch.Provider.Hashing

/-!
# Runs of a matcher

A run asks the provider at most twice, and each answer has to be usable. What the provider answers
may depend on a state of its own, which every call may change: its monad is that of a state.

The faults that a run may meet have an order (`Matcher.fault?`): those of the payload come first,
then those of the answer for the fields, and then those of the answer for the API methods.

* `recommend_run`: the first fault is the outcome of the run, and nothing is asked after it;
* `recommend_eq_ok_iff`: without a fault nothing else can fail, and the outcome is that of the
  selections in the rows of scores (`MatchingSettings.recommended`);
* `recommend_trace`: all of this, with a record of the batches that the provider is asked for.
-/

namespace SchemaMatch

variable {σ : Type} {dimension : Nat} {texts : List String}

/-! ## Faults -/

/-- The fault of a payload without fields or without API methods. -/
def Payload.fault? (payload : Payload) : Option Error :=
  if payload.fields.entries = [] then some (.emptyInput "fieldDescriptions")
  else if payload.apis = [] then some (.emptyInput "apiMethods")
  else none

/-- An embedding that a run of a dimension can use. -/
structure Embedding.Usable (dimension : Nat) (v : Embedding) : Prop where
  nonempty : v.isEmpty = false
  finite : v.isFinite = true
  dimension_eq : v.dimension = dimension

instance (v : Embedding) : Decidable (v.Usable dimension) :=
  decidable_of_iff (v.isEmpty = false ∧ v.isFinite = true ∧ v.dimension = dimension)
    ⟨fun h => ⟨h.1, h.2.1, h.2.2⟩, fun h => ⟨h.nonempty, h.finite, h.dimension_eq⟩⟩

/-- The fault of the embedding of a text that is empty, not finite, or of another dimension. -/
def vectorFault? (dimension : Nat) (text : String) (v : Embedding) : Option Error :=
  if v.isEmpty = true then some (.embeddingFailure (.emptyVector text))
  else if v.isFinite = false then some (.embeddingFailure (.nonFiniteVector text))
  else if v.dimension ≠ dimension then some (.dimensionMismatch dimension v.dimension)
  else none

/-- The first fault of an answer to a batch of texts: the provider's own, a wrong number of vectors,
    or that of the first vector that has one. -/
def batchFault? (dimension : Nat) (texts : List String) :
    Except Error (List Embedding) → Option Error
  | .error e => some e
  | .ok vectors =>
    if vectors.length ≠ texts.length then
      some (.embeddingFailure (.batchCount vectors.length texts.length))
    else (texts.zip vectors).findSome? fun entry => vectorFault? dimension entry.1 entry.2

/-- The dimension of the first vector of an answer. -/
def firstDimension : Except Error (List Embedding) → Nat
  | .ok (v :: _) => v.dimension
  | _ => 0

theorem Payload.fault?_eq_none_iff {payload : Payload} :
    payload.fault? = none ↔ payload.fields.entries ≠ [] ∧ payload.apis ≠ [] := by
  rw [fault?]
  split
  · simp_all
  · split <;> simp_all

theorem validate_eq_fault? (payload : Payload) :
    payload.validate = payload.fault?.elim (.ok ()) .error := by
  rw [Payload.validate, Payload.fault?]
  cases hfields : payload.fields.entries <;> cases hapis : payload.apis <;>
    simp [Table.isEmpty, hfields, fieldCollection, apiCollection]

theorem vectorFault?_eq_none_iff {text : String} {v : Embedding} :
    vectorFault? dimension text v = none ↔ v.Usable dimension := by
  rw [vectorFault?]
  constructor
  · intro h
    split at h
    · cases h
    · split at h
      · cases h
      · split at h
        · cases h
        · exact ⟨by simp_all, by simp_all, by simp_all⟩
  · intro h
    simp [h.nonempty, h.finite, h.dimension_eq]

theorem checkVectors_eq_findSome? (dimension : Nat) (entries : List (String × Embedding)) :
    checkVectors dimension entries =
      (entries.findSome? fun entry => vectorFault? dimension entry.1 entry.2).elim
        (.ok ()) .error := by
  induction entries with
  | nil => rfl
  | cons entry later ih =>
    obtain ⟨text, v⟩ := entry
    rw [checkVectors, List.findSome?_cons, ih, vectorFault?]
    cases v.isEmpty <;> cases v.isFinite <;> by_cases hd : v.dimension = dimension <;> simp [hd]

/-- Checking an answer finds its first fault, where the dimension is the one expected. -/
theorem bind_checkBatch {answer : Except Error (List Embedding)} {expected : Option Nat}
    (hexpected : expected.getD (firstDimension answer) = dimension) :
    answer.bind (checkBatch texts expected) =
      (batchFault? dimension texts answer).elim answer .error := by
  cases answer with
  | error e => rfl
  | ok vectors =>
    have hfirst : (vectors.head?.map Embedding.dimension).getD 0 =
        firstDimension (.ok vectors) := by
      cases vectors <;> rfl
    rw [Except.bind, checkBatch, batchFault?]
    by_cases hcount : vectors.length = texts.length
    · simp only [hcount, ne_eq, not_true_eq_false, if_false, hfirst, hexpected,
        checkVectors_eq_findSome?]
      cases (texts.zip vectors).findSome? fun entry => vectorFault? dimension entry.1 entry.2 with
      | none => rfl
      | some e => rfl
    · simp [hcount, bind, Except.bind, throw, throwThe, MonadExceptOf.throw]

theorem batchFault?_eq_none_iff {answer : Except Error (List Embedding)} :
    batchFault? dimension texts answer = none ↔
      ∃ vectors, answer = .ok vectors ∧ vectors.length = texts.length ∧
        ∀ v ∈ vectors, v.Usable dimension := by
  cases answer with
  | error e => simp [batchFault?]
  | ok vectors =>
    rw [batchFault?]
    by_cases hcount : vectors.length = texts.length
    · rw [if_neg (by simp [hcount]), List.findSome?_eq_none_iff]
      simp only [vectorFault?_eq_none_iff, Except.ok.injEq, exists_eq_left', hcount, true_and]
      -- With as many vectors as texts, each vector has a text.
      have hzip : (texts.zip vectors).map (·.2) = vectors := List.map_snd_zip (Nat.le_of_eq hcount)
      constructor
      · intro h v hv
        rw [← hzip] at hv
        obtain ⟨entry, hentry, rfl⟩ := List.mem_map.1 hv
        exact h entry hentry
      · intro h entry hentry
        exact h _ (List.of_mem_zip hentry).2
    · simp [hcount]

namespace Matcher

/-! ## Answers -/

variable (r : Matcher (StateM σ)) (payload : Payload) (s : σ)

/-- What the provider answers for the fields, in a run that starts in a state, and the state that
    this leaves. -/
def fieldAnswer : Except Error (List Embedding) × σ :=
  (r.provider.embed payload.fields.values).run s

/-- What the provider answers for the API methods, after the fields, and the state that this
    leaves. -/
def apiAnswer : Except Error (List Embedding) × σ :=
  (r.provider.embed payload.apiDescriptions).run (r.fieldAnswer payload s).2

/-- The fault of the answer for the fields: its first vector sets the dimension. -/
def fieldFault? : Option Error :=
  batchFault? (firstDimension (r.fieldAnswer payload s).1) payload.fields.values
    (r.fieldAnswer payload s).1

/-- The fault of the answer for the API methods, which must have the dimension of the fields. -/
def apiFault? : Option Error :=
  batchFault? (firstDimension (r.fieldAnswer payload s).1) payload.apiDescriptions
    (r.apiAnswer payload s).1

/-- The first fault that a run meets. -/
def fault? : Option Error :=
  payload.fault?.or ((r.fieldFault? payload s).or (r.apiFault? payload s))

/-- Whether the provider answers with some embeddings for the fields and for the API methods. -/
structure Embeds (fields apis : List Embedding) : Prop where
  fieldAnswer_eq : (r.fieldAnswer payload s).1 = .ok fields
  apiAnswer_eq : (r.apiAnswer payload s).1 = .ok apis

/-- The embeddings of a run are those that the provider answers with. -/
theorem Embeds.unique {r : Matcher (StateM σ)} {payload : Payload} {s : σ}
    {fields fields' apis apis' : List Embedding} (h : r.Embeds payload s fields apis)
    (h' : r.Embeds payload s fields' apis') : fields = fields' ∧ apis = apis' := by
  have hfields := h.fieldAnswer_eq.symm.trans h'.fieldAnswer_eq
  have hapis := h.apiAnswer_eq.symm.trans h'.apiAnswer_eq
  exact ⟨Except.ok.inj hfields, Except.ok.inj hapis⟩

/-- A batch is asked for, and its first fault takes the place of the answer. -/
theorem embedBatch_run {expected : Option Nat}
    (hexpected : expected.getD (firstDimension ((r.provider.embed texts).run s).1) = dimension) :
    (r.embedBatch texts expected).run s =
      ((batchFault? dimension texts ((r.provider.embed texts).run s).1).elim
        ((r.provider.embed texts).run s).1 .error, ((r.provider.embed texts).run s).2) := by
  rw [← bind_checkBatch hexpected]
  rfl

section Next

variable {r s} {answer : Except Error (List Embedding) × σ} {expected : Option Nat}
  (hembed : (r.provider.embed texts).run s = answer)
  (hexpected : expected.getD (firstDimension answer.1) = dimension)
  (next : List Embedding → StateM σ (Except Error Recommendations))

include hembed hexpected

/-- A fault of a batch ends a run. -/
theorem embedBatch_bind_of_fault {e : Error}
    (hfault : batchFault? dimension texts answer.1 = some e) :
    (do
      match ← r.embedBatch texts expected with
      | .error e => return .error e
      | .ok vectors => next vectors : StateM σ _).run s = (.error e, answer.2) := by
  subst hembed
  rw [StateT.run_bind, r.embedBatch_run s hexpected, hfault]
  rfl

/-- Without a fault, a run goes on with the vectors of the batch. -/
theorem embedBatch_bind_of_ok {vectors : List Embedding} (hanswer : answer.1 = .ok vectors)
    (hfault : batchFault? dimension texts answer.1 = none) :
    (do
      match ← r.embedBatch texts expected with
      | .error e => return .error e
      | .ok vectors => next vectors : StateM σ _).run s = (next vectors).run answer.2 := by
  subst hembed
  rw [StateT.run_bind, r.embedBatch_run s hexpected, hfault, hanswer]
  rfl

end Next

/-- The first fault is the outcome of a run, and the provider is not asked again after it. -/
theorem recommend_run :
    (r.recommend payload).run s =
      match payload.fault? with
      | some e => (.error e, s)
      | none =>
        match r.fieldFault? payload s with
        | some e => (.error e, (r.fieldAnswer payload s).2)
        | none =>
          match r.apiFault? payload s with
          | some e => (.error e, (r.apiAnswer payload s).2)
          | none =>
            ((r.fieldAnswer payload s).1.bind fun fields =>
              (r.apiAnswer payload s).1.bind fun apis => r.settings.recommend payload fields apis,
              (r.apiAnswer payload s).2) := by
  rw [recommend, validate_eq_fault?]
  cases hpayload : payload.fault? with
  | some e => rfl
  | none =>
    cases hfieldFault : r.fieldFault? payload s with
    | some e => exact embedBatch_bind_of_fault rfl rfl _ hfieldFault
    | none =>
      obtain ⟨fields, hfields, hlength, -⟩ := batchFault?_eq_none_iff.1 hfieldFault
      refine Eq.trans (embedBatch_bind_of_ok rfl rfl _ hfields hfieldFault) ?_
      -- There is a first field, so that the API methods are held to its dimension.
      have hexpected : (fields.head?.map Embedding.dimension).getD
          (firstDimension (r.apiAnswer payload s).1) =
            firstDimension (r.fieldAnswer payload s).1 := by
        cases fields with
        | nil =>
          have hnil : payload.fields.entries = [] :=
            List.eq_nil_of_length_eq_zero (by simpa [Table.values] using hlength.symm)
          exact absurd hnil (Payload.fault?_eq_none_iff.1 hpayload).1
        | cons v later =>
          rw [hfields]
          rfl
      cases hapiFault : r.apiFault? payload s with
      | some e => exact embedBatch_bind_of_fault rfl hexpected _ hapiFault
      | none =>
        obtain ⟨apis, hapis, -, -⟩ := batchFault?_eq_none_iff.1 hapiFault
        refine Eq.trans (embedBatch_bind_of_ok rfl hexpected _ hapis hapiFault) ?_
        rw [hfields, hapis]
        rfl

end Matcher

/-! ## Outcomes -/

/-- Whether some embeddings are all that a run needs for a payload: there are fields and API
    methods, each has an embedding, and these can be used at one dimension. -/
structure Payload.Usable (payload : Payload) (fields apis : List Embedding) : Prop where
  fields_ne_nil : payload.fields.entries ≠ []
  apis_ne_nil : payload.apis ≠ []
  length_fields : fields.length = payload.fields.values.length
  length_apis : apis.length = payload.apiDescriptions.length
  usable : ∀ v ∈ fields ++ apis, v.Usable (firstDimension (.ok fields))

instance (payload : Payload) (fields apis : List Embedding) :
    Decidable (payload.Usable fields apis) :=
  decidable_of_iff
    (payload.fields.entries ≠ [] ∧ payload.apis ≠ [] ∧
      fields.length = payload.fields.values.length ∧ apis.length = payload.apiDescriptions.length ∧
      ∀ v ∈ fields ++ apis, v.Usable (firstDimension (.ok fields)))
    ⟨fun h => ⟨h.1, h.2.1, h.2.2.1, h.2.2.2.1, h.2.2.2.2⟩,
      fun h => ⟨h.fields_ne_nil, h.apis_ne_nil, h.length_fields, h.length_apis, h.usable⟩⟩

theorem Payload.Usable.fieldVectors_ne_nil {payload : Payload} {fields apis : List Embedding}
    (h : payload.Usable fields apis) : fields ≠ [] := by
  rintro rfl
  exact h.fields_ne_nil (List.eq_nil_of_length_eq_zero
    (by simpa [Table.values] using h.length_fields.symm))

theorem Payload.Usable.apiVectors_ne_nil {payload : Payload} {fields apis : List Embedding}
    (h : payload.Usable fields apis) : apis ≠ [] := by
  rintro rfl
  exact h.apis_ne_nil (List.eq_nil_of_length_eq_zero
    (by simpa [Payload.apiDescriptions] using h.length_apis.symm))

namespace MatchingSettings

/-- The rows of scores of some embeddings. -/
def scores (c : MatchingSettings) (fields apis : List Embedding) : List (List Float) :=
  fields.map fun v => apis.map (c.scoring.score (firstDimension (.ok fields)) v)

/-- What is recommended for a payload by the scores of its embeddings. -/
def recommended (c : MatchingSettings) (payload : Payload) (fields apis : List Embedding) :
    Recommendations :=
  .grouped payload.fields.names payload.apis ((c.scores fields apis).map c.policy.selectRow)

variable {c : MatchingSettings} {payload : Payload} {fields apis : List Embedding}

theorem scoring_valid (hc : c.validate = .ok ()) : c.scoring.Valid := by
  rw [validate] at hc
  split at hc
  · cases hc
  · rw [scoring]
    cases hstrategy : c.strategy with
    | cosine => trivial
    | projected => simpa [hstrategy, Scoring.Valid] using hc

theorem length_scores (c : MatchingSettings) (h : payload.Usable fields apis) :
    (c.scores fields apis).length = payload.fields.names.length := by
  rw [scores, List.length_map, h.length_fields]
  simp [Table.values, Table.names]

/-- With embeddings that can be used, the matrix of scores exists. -/
theorem build_of_usable (hc : c.validate = .ok ()) (h : payload.Usable fields apis) :
    ∃ m, ScoreMatrix.build fields apis c.scoring = .ok m ∧ m.rows = c.scores fields apis ∧
      m.height = payload.fields.names.length ∧ m.width = payload.apis.length := by
  have hpos : firstDimension (.ok fields) ≠ 0 := by
    -- Some vector has this dimension, and it is not empty.
    obtain ⟨v, hv⟩ := List.exists_mem_of_ne_nil fields h.fieldVectors_ne_nil
    have hv := h.usable v (List.mem_append_left _ hv)
    have hnonempty := hv.nonempty
    rw [← hv.dimension_eq, Embedding.dimension]
    rw [Embedding.isEmpty] at hnonempty
    simpa using hnonempty
  obtain ⟨m, hm, hwidth, hrows⟩ := ScoreMatrix.exists_build h.fieldVectors_ne_nil
    h.apiVectors_ne_nil hpos (fun v hv => (h.usable v hv).dimension_eq) (scoring_valid hc)
  refine ⟨m, hm, hrows, ?_, ?_⟩
  · rw [ScoreMatrix.height, hrows]
    exact length_scores c h
  · rw [hwidth, h.length_apis, Payload.apiDescriptions, List.length_map]

/-- Every column that is selected in a row of scores is that of an API method. -/
theorem column_lt_of_mem_selected (h : payload.Usable fields apis) :
    ∀ selection ∈ (c.scores fields apis).map c.policy.selectRow,
      ∀ candidate ∈ selection, candidate.column < payload.apis.length := by
  intro selection hselection candidate hcandidate
  obtain ⟨row, hrow, rfl⟩ := List.mem_map.1 hselection
  obtain ⟨v, -, rfl⟩ := List.mem_map.1 hrow
  have hlt := column_lt_of_mem_selectRow hcandidate
  rwa [List.length_map, h.length_apis, Payload.apiDescriptions, List.length_map] at hlt

/-- With embeddings that can be used, nothing fails. -/
theorem recommend_of_usable (hc : c.validate = .ok ()) (h : payload.Usable fields apis) :
    c.recommend payload fields apis = .ok (c.recommended payload fields apis) := by
  obtain ⟨m, hm, hrows, -, -⟩ := build_of_usable hc h
  have hgrouped : Recommendations.ofSelections payload.fields.names payload.apis
      (c.policy.select m) = some (c.recommended payload fields apis) := by
    rw [Policy.select, hrows]
    exact Recommendations.ofSelections_eq_some (column_lt_of_mem_selected h)
  rw [recommend, hm]
  change Except.ok (Option.getD _ _) = _
  rw [hgrouped, Option.getD_some]

end MatchingSettings

namespace Matcher

variable {r : Matcher (StateM σ)} {payload : Payload} {s : σ} {rs : Recommendations}

theorem fault?_eq_none_iff :
    r.fault? payload s = none ↔
      ∃ fields apis, r.Embeds payload s fields apis ∧ payload.Usable fields apis := by
  rw [fault?, Option.or_eq_none_iff, Option.or_eq_none_iff, Payload.fault?_eq_none_iff, fieldFault?,
    apiFault?, batchFault?_eq_none_iff, batchFault?_eq_none_iff]
  constructor
  · rintro ⟨⟨hf, ha⟩, ⟨fields, hfields, hflength, hfusable⟩, apis, hapis, halength, hausable⟩
    rw [hfields] at hfusable hausable
    exact ⟨fields, apis, ⟨hfields, hapis⟩, hf, ha, hflength, halength,
      List.forall_mem_append.2 ⟨hfusable, hausable⟩⟩
  · rintro ⟨fields, apis, ⟨hfields, hapis⟩, hf, ha, hflength, halength, husable⟩
    rw [List.forall_mem_append] at husable
    rw [hfields]
    exact ⟨⟨hf, ha⟩, ⟨fields, rfl, hflength, husable.1⟩, apis, hapis, halength, husable.2⟩

theorem recommend_outcome (r : Matcher (StateM σ)) (payload : Payload) (s : σ) :
    ((r.recommend payload).run s).1 =
      (r.fault? payload s).elim
        ((r.fieldAnswer payload s).1.bind fun fields =>
          (r.apiAnswer payload s).1.bind fun apis => r.settings.recommend payload fields apis)
        .error := by
  rw [recommend_run, fault?]
  cases payload.fault? with
  | some e => rfl
  | none =>
    cases r.fieldFault? payload s with
    | some e => rfl
    | none => cases r.apiFault? payload s <;> rfl

/-- A run in which all answers can be used succeeds. -/
theorem recommend_of_usable {fields apis : List Embedding}
    (hembeds : r.Embeds payload s fields apis) (husable : payload.Usable fields apis) :
    ((r.recommend payload).run s).1 = .ok (r.settings.recommended payload fields apis) := by
  rw [recommend_outcome, fault?_eq_none_iff.2 ⟨fields, apis, hembeds, husable⟩,
    hembeds.fieldAnswer_eq, hembeds.apiAnswer_eq]
  exact MatchingSettings.recommend_of_usable r.valid husable

/-- A run fails with the first fault that it meets, and with nothing else. -/
theorem recommend_eq_error_iff {e : Error} :
    ((r.recommend payload).run s).1 = .error e ↔ r.fault? payload s = some e := by
  cases hfault : r.fault? payload s with
  | some e' => simp [recommend_outcome, hfault]
  | none =>
    obtain ⟨fields, apis, hembeds, husable⟩ := fault?_eq_none_iff.1 hfault
    simp [recommend_of_usable hembeds husable]

/-- A run succeeds exactly if all answers can be used. -/
theorem recommend_eq_ok_iff :
    ((r.recommend payload).run s).1 = .ok rs ↔
      ∃ fields apis, r.Embeds payload s fields apis ∧ payload.Usable fields apis ∧
        r.settings.recommended payload fields apis = rs := by
  constructor
  · intro hrun
    have hfault : r.fault? payload s = none := by
      cases hfault : r.fault? payload s with
      | none => rfl
      | some e => simp [recommend_eq_error_iff.2 hfault] at hrun
    obtain ⟨fields, apis, hembeds, husable⟩ := fault?_eq_none_iff.1 hfault
    rw [recommend_of_usable hembeds husable, Except.ok.injEq] at hrun
    exact ⟨fields, apis, hembeds, husable, hrun⟩
  · rintro ⟨fields, apis, hembeds, husable, rfl⟩
    exact recommend_of_usable hembeds husable

end Matcher

/-! ## Traces -/

/-- A provider that also records the batches that it is asked for. -/
def Provider.recorded (p : Provider (StateM σ)) : Provider (StateM (σ × List (List String))) where
  info := p.info
  embed texts := modifyGet fun (s, asked) =>
    let (answer, after) := (p.embed texts).run s
    (answer, after, asked ++ [texts])

namespace Matcher

/-- A matcher of which the provider records the batches that it is asked for. -/
def recorded (r : Matcher (StateM σ)) : Matcher (StateM (σ × List (List String))) :=
  { r with provider := r.provider.recorded }

/-- The batches that a run asks for: none for a payload with a fault, and that of the API methods
    only if the answer for the fields has none. -/
def batches (r : Matcher (StateM σ)) (payload : Payload) (s : σ) : List (List String) :=
  if payload.fault?.isSome then []
  else if (r.fieldFault? payload s).isSome then [payload.fields.values]
  else [payload.fields.values, payload.apiDescriptions]

/-- A record changes nothing but that it holds the batches. -/
theorem recommend_recorded_run (r : Matcher (StateM σ)) (payload : Payload) (s : σ) :
    (r.recorded.recommend payload).run (s, []) =
      (((r.recommend payload).run s).1, ((r.recommend payload).run s).2, r.batches payload s) := by
  have hfields : r.recorded.fieldAnswer payload (s, []) =
      ((r.fieldAnswer payload s).1, (r.fieldAnswer payload s).2, [payload.fields.values]) := rfl
  have hapis : r.recorded.apiAnswer payload (s, []) =
      ((r.apiAnswer payload s).1, (r.apiAnswer payload s).2,
        [payload.fields.values, payload.apiDescriptions]) := rfl
  have hfieldFault : r.recorded.fieldFault? payload (s, []) = r.fieldFault? payload s := rfl
  have hapiFault : r.recorded.apiFault? payload (s, []) = r.apiFault? payload s := rfl
  rw [recommend_run, recommend_run, batches, hfields, hapis, hfieldFault, hapiFault]
  cases payload.fault? with
  | some e => rfl
  | none =>
    cases r.fieldFault? payload s with
    | some e => rfl
    | none => cases r.apiFault? payload s <;> rfl

/-- A run asks for the descriptions of the fields and then, unless there was a fault, for those of
    the API methods. It fails with the first fault, and succeeds exactly if all that it needs is
    there. -/
theorem recommend_trace (r : Matcher (StateM σ)) (payload : Payload) (s : σ) :
    (r.recorded.recommend payload).run (s, []) =
        (((r.recommend payload).run s).1, ((r.recommend payload).run s).2, r.batches payload s) ∧
      (∀ e, ((r.recommend payload).run s).1 = .error e ↔ r.fault? payload s = some e) ∧
      ((∃ rs, ((r.recommend payload).run s).1 = .ok rs) ↔
        ∃ fields apis, r.Embeds payload s fields apis ∧ payload.Usable fields apis) := by
  refine ⟨r.recommend_recorded_run payload s, fun e => recommend_eq_error_iff, ?_⟩
  constructor
  · rintro ⟨rs, hrun⟩
    obtain ⟨fields, apis, hembeds, husable, -⟩ := recommend_eq_ok_iff.1 hrun
    exact ⟨fields, apis, hembeds, husable⟩
  · rintro ⟨fields, apis, hembeds, husable⟩
    exact ⟨_, recommend_of_usable hembeds husable⟩

end Matcher

/-! ## Texts on their own -/

/-- Whether a provider embeds each text on its own, whatever its state. -/
def Provider.Independent (p : Provider (StateM σ)) (embed : String → Except Error Embedding) :
    Prop :=
  ∀ texts s, ((p.embed texts).run s).1 = texts.mapM embed

theorem Provider.Independent.embeds_iff {r : Matcher (StateM σ)}
    {embed : String → Except Error Embedding} (h : r.provider.Independent embed)
    {payload : Payload} {s : σ} {fields apis : List Embedding} :
    r.Embeds payload s fields apis ↔
      payload.fields.values.mapM embed = .ok fields ∧
        payload.apiDescriptions.mapM embed = .ok apis := by
  constructor
  · rintro ⟨hfields, hapis⟩
    exact ⟨(h _ _).symm.trans hfields, (h _ _).symm.trans hapis⟩
  · rintro ⟨hfields, hapis⟩
    exact ⟨(h _ _).trans hfields, (h _ _).trans hapis⟩

/-- The hashing embedder embeds each text on its own. -/
theorem HashEmbedder.independent (e : HashEmbedder) :
    (e.provider : Provider (StateM σ)).Independent fun text => .ok (e.embed text) := by
  intro texts s
  exact (List.mapM_pure (m := Except Error)).symm

/-- A provider that knows the embeddings of some texts: that of any other has no components. -/
def Provider.ofTable (table : List (String × List Float32)) : Provider (StateM Unit) where
  info := ⟨"table", "table", none, .cpu⟩
  embed texts := pure (.ok (texts.map fun text => ⟨(table.lookup text).getD []⟩))

theorem Provider.independent_ofTable (table : List (String × List Float32)) :
    (ofTable table).Independent fun text => .ok ⟨(table.lookup text).getD []⟩ := by
  intro texts s
  exact (List.mapM_pure (m := Except Error)).symm

/-- The embeddings of two axes and of two directions between them. -/
def directions : List (String × List Float32) :=
  [("east", [1, 0]), ("north", [0, 1]), ("low", [4, 3]), ("high", [3, 4])]

/-- A matcher that knows some directions. -/
def Matcher.ofDirections (c : MatchingSettings) (hc : c.validate = .ok ()) :
    Matcher (StateM Unit) :=
  ⟨.ofTable directions, c, hc⟩

end SchemaMatch

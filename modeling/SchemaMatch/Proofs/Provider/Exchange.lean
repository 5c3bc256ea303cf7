import SchemaMatch.Proofs.Json.RoundTrip
import SchemaMatch.Provider.Remote

/-!
# Asking a service

For a batch of texts a service is asked once, and not at all for no texts or if the header cannot be
sent (`RemoteEmbedder.requests`). What it is asked with is read as the texts of the batch, and
nothing else comes of its answer than the vectors in it or a failure to embed: the vectors if the
answer is a success, has JSON as its content, and this has as many vectors as there are texts
(`HttpResponse.Answers`).

* `RemoteEmbedder.body_faithful`: a body is read as the texts and the model, and no other texts or
  model have the same body;
* `RemoteEmbedder.embed_trace`: what is asked for some texts, and what comes of the answer.
-/

namespace SchemaMatch

open Json

variable {σ : Type}

/-! ## Responses -/

namespace HttpResponse

/-- The body of a response as it is received: some statuses come without a body. -/
def content (r : HttpResponse) : List UInt8 :=
  if isBodyless r.status then [] else r.body

/-- Whether a response is a success of which the content has the vectors of a number of texts. -/
structure Answers (r : HttpResponse) (texts : Nat) (vectors : List (List Float32)) : Prop where
  success : 200 ≤ r.status ∧ r.status ≤ 299
  content : ∃ value, Decoder.value.decode r.content = .ok value ∧
    responseVectors value = .ok vectors
  count : vectors.length = texts

/-- The embeddings that a response gives, and the faults that keep it from giving any. -/
theorem embeddings_eq (r : HttpResponse) (texts : Nat) :
    r.embeddings texts =
      if 200 ≤ r.status ∧ r.status ≤ 299 then
        match Decoder.value.decode r.content with
        | .error _ => .error .notJson
        | .ok value =>
          match responseVectors value with
          | .error fault => .error fault
          | .ok vectors =>
            if vectors.length = texts then .ok (vectors.map Embedding.mk)
            else .error (.responseCount vectors.length texts)
      else .error (.refused (statusLine r.status) (Text.lossy r.content)) := by
  by_cases hsuccess : 200 ≤ r.status ∧ r.status ≤ 299
  · rw [embeddings, if_pos hsuccess, if_neg (not_not.2 hsuccess)]
    change (match Decoder.value.decode r.content with | .error _ => _ | .ok value => _) = _
    cases Decoder.value.decode r.content with
    | error fault => rfl
    | ok value =>
      cases hvectors : responseVectors value with
      | error fault =>
        simp only [hvectors]
        rfl
      | ok vectors =>
        simp only [hvectors]
        change (if vectors.length ≠ texts then _ else _) = _
        by_cases hcount : vectors.length = texts
        · rw [if_pos hcount, if_neg (not_not.2 hcount)]
          rfl
        · rw [if_neg hcount, if_pos hcount]
          rfl
  · rw [embeddings, if_neg hsuccess, if_pos hsuccess]
    rfl

/-- A response gives embeddings exactly if it answers, and then those of its vectors. -/
theorem embeddings_eq_ok_iff {r : HttpResponse} {texts : Nat} {embeddings : List Embedding} :
    r.embeddings texts = .ok embeddings ↔
      ∃ vectors, r.Answers texts vectors ∧ embeddings = vectors.map Embedding.mk := by
  rw [embeddings_eq]
  constructor
  · intro h
    split at h
    · next hsuccess =>
      split at h
      · simp at h
      · next value hjson =>
        split at h
        · simp at h
        · next vectors hvectors =>
          split at h
          · next hcount =>
            exact ⟨vectors, ⟨hsuccess, ⟨value, hjson, hvectors⟩, hcount⟩, (Except.ok.inj h).symm⟩
          · simp at h
    · simp at h
  · rintro ⟨vectors, ⟨hsuccess, ⟨value, hjson, hvectors⟩, hcount⟩, rfl⟩
    simp only [hsuccess, and_self, if_true, hjson, hvectors, hcount]

end HttpResponse

/-! ## Payloads -/

namespace Dialect

/-- The name under which a form of the request has the texts. -/
def textsName : Dialect → String
  | .openai => "input"
  | .huggingface => "inputs"
  | .custom => "texts"

/-- A payload has each name once: one for the texts, and one for the model where it is sent. -/
theorem exists_payload_eq_object (f : Dialect) (model : String) (texts : List String) :
    ∃ members, f.payload model texts = .object members ∧ (members.map (·.1)).Nodup ∧
      lastMember? f.textsName members = some (.array (texts.map .string)) ∧
      lastMember? "model" members =
        if f = .huggingface then none else some (.string model) := by
  cases f <;> exact ⟨_, rfl, by simp, rfl, rfl⟩

/-- A payload tells its form, the texts, and the model where it is sent. -/
theorem payload_eq_iff {f f' : Dialect} {model model' : String} {texts texts' : List String} :
    f.payload model texts = f'.payload model' texts' ↔
      f = f' ∧ texts = texts' ∧ (f = .huggingface ∨ model = model') := by
  have htexts : texts.map Value.string = texts'.map Value.string ↔ texts = texts' :=
    List.map_inj_right fun _ _ => Value.string.inj
  cases f <;> cases f' <;> simp [payload, htexts, and_comm]

end Dialect

/-! ## Exchanges -/

/-- A transport that also records the requests that it carries. -/
def Transport.recorded (transport : Transport (StateM σ)) :
    Transport (StateM (σ × List HttpRequest)) := fun request =>
  modifyGet fun (s, carried) =>
    let (answer, after) := (transport request).run s
    (answer, after, carried ++ [request])

theorem Transport.recorded_run (transport : Transport (StateM σ)) (request : HttpRequest) (s : σ)
    (carried : List HttpRequest) :
    (transport.recorded request).run (s, carried) =
      (((transport request).run s).1, ((transport request).run s).2, carried ++ [request]) := rfl

namespace RemoteEmbedder

variable (e : RemoteEmbedder)

/-- Whether a request can be sent at all. -/
def sendable : Bool := e.authorization.all isHeaderValue

/-- The requests that are sent for some texts. -/
def requests (texts : List String) : List HttpRequest :=
  if texts.isEmpty ∨ ¬e.sendable then [] else [e.request texts]

/-- The response that comes for some texts, if there is one. -/
def response? (transport : Transport (StateM σ)) (texts : List String) (s : σ) :
    Option HttpResponse :=
  if e.sendable then ((transport (e.request texts)).run s).1 else none

/-- The embeddings are those of the response, if one comes. -/
theorem embed_run (transport : Transport (StateM σ)) (texts : List String) (s : σ) :
    ((e.embed transport texts).run s).1 =
      if texts.isEmpty then .ok []
      else match e.response? transport texts s with
        | none => .error (.embeddingFailure .noResponse)
        | some response => (response.embeddings texts.length).mapError .embeddingFailure := by
  rw [embed, response?, sendable]
  by_cases htexts : texts.isEmpty
  · simp only [htexts, if_true]
    rfl
  · by_cases hsend : e.authorization.all isHeaderValue
    · simp only [htexts, hsend, not_true_eq_false, if_false, if_true, StateT.run_bind,
        Bool.false_eq_true]
      cases (transport (e.request texts)).run s with
      | mk answer after => cases answer <;> rfl
    · simp only [htexts, hsend]
      rfl

/-- For no texts embedding succeeds with no embeddings, and for any others exactly if a response
    comes that answers, with its vectors. -/
theorem embed_eq_ok_iff (transport : Transport (StateM σ)) (texts : List String) (s : σ)
    (embeddings : List Embedding) :
    ((e.embed transport texts).run s).1 = .ok embeddings ↔
      if texts.isEmpty then embeddings = []
      else ∃ response vectors, e.response? transport texts s = some response ∧
        response.Answers texts.length vectors ∧ embeddings = vectors.map Embedding.mk := by
  rw [e.embed_run]
  by_cases htexts : texts.isEmpty
  · simp only [htexts, if_true, Except.ok.injEq]
    exact eq_comm
  · simp only [htexts, Bool.false_eq_true, if_false]
    cases e.response? transport texts s with
    | none => simp
    | some response =>
      have hmap : (response.embeddings texts.length).mapError Error.embeddingFailure =
          .ok embeddings ↔ response.embeddings texts.length = .ok embeddings := by
        cases response.embeddings texts.length <;> simp [Except.mapError]
      simp only [hmap, HttpResponse.embeddings_eq_ok_iff, Option.some.injEq, exists_and_left,
        exists_eq_left']

/-- Embedding either succeeds or fails as embedding. -/
theorem embed_outcome (transport : Transport (StateM σ)) (texts : List String) (s : σ) :
    (∃ embeddings, ((e.embed transport texts).run s).1 = .ok embeddings) ∨
      ∃ fault, ((e.embed transport texts).run s).1 = .error (.embeddingFailure fault) := by
  rw [e.embed_run]
  split
  · exact .inl ⟨[], rfl⟩
  · split
    · exact .inr ⟨_, rfl⟩
    · next response _ =>
      cases response.embeddings texts.length with
      | ok embeddings => exact .inl ⟨embeddings, rfl⟩
      | error fault => exact .inr ⟨fault, rfl⟩

/-- A record changes nothing but that it holds the requests. -/
theorem embed_recorded_run (transport : Transport (StateM σ)) (texts : List String) (s : σ) :
    (e.embed transport.recorded texts).run (s, []) =
      (((e.embed transport texts).run s).1, ((e.embed transport texts).run s).2,
        e.requests texts) := by
  rw [embed, embed, requests, sendable]
  by_cases htexts : texts.isEmpty
  · simp only [htexts, if_true, true_or]
    rfl
  · by_cases hsend : e.authorization.all isHeaderValue
    · simp only [htexts, hsend, not_true_eq_false, if_false, StateT.run_bind, Bool.false_eq_true,
        or_self]
      rw [transport.recorded_run]
      cases (transport (e.request texts)).run s with
      | mk answer after => cases answer <;> rfl
    · simp only [htexts, hsend]
      rfl

theorem readable_payload (format : Dialect) (model : String) (texts : List String) :
    (format.payload model texts).Readable depthLimit := by
  have htexts : ∀ levels, (Value.array (texts.map .string)).Readable (levels + 1) := by
    intro levels
    refine .array fun item hitem => ?_
    obtain ⟨text, -, rfl⟩ := List.mem_map.1 hitem
    exact .string text
  have hobject : ∀ members : List (String × Value),
      (∀ entry ∈ members, entry.2 = .array (texts.map .string) ∨ entry.2 = .string model) →
        (Value.object members).Readable depthLimit := by
    refine fun members h => .object fun entry hentry => ?_
    rcases h entry hentry with heq | heq <;> rw [heq]
    · exact htexts _
    · exact .string model
  cases format <;> exact hobject _ (by simp)

/-- What is sent is read as the payload for the texts. -/
theorem decode_body (texts : List String) :
    Decoder.value.decode (Text.bytes (e.request texts).body) =
      .ok (e.format.payload e.model texts) :=
  (readable_payload e.format e.model texts).decode blank_compact

/-- A body is read as an object that has each name once, with exactly the texts under the name of
    its form, and with the model unless the form leaves it out. No two bodies are equal but those of
    one form, of the same texts, and of the same model where it is sent. -/
theorem body_faithful (texts : List String) :
    (∃ members, Decoder.value.decode (Text.bytes (e.request texts).body) = .ok (.object members) ∧
        (members.map (·.1)).Nodup ∧
        lastMember? e.format.textsName members = some (.array (texts.map .string)) ∧
        lastMember? "model" members =
          if e.format = .huggingface then none else some (.string e.model)) ∧
      ∀ (e' : RemoteEmbedder) (texts' : List String),
        (e.request texts).body = (e'.request texts').body ↔
          e.format = e'.format ∧ texts = texts' ∧
            (e.format = .huggingface ∨ e.model = e'.model) := by
  constructor
  · obtain ⟨members, hpayload, h⟩ := e.format.exists_payload_eq_object e.model texts
    exact ⟨members, by rw [e.decode_body, hpayload], h⟩
  · intro e' texts'
    rw [← Dialect.payload_eq_iff]
    constructor
    · -- Equal bodies are read as one payload.
      intro hbody
      have hread := e.decode_body texts
      rw [hbody, e'.decode_body] at hread
      exact (Except.ok.inj hread).symm
    · intro hpayload
      exact congrArg Value.compact hpayload

/-- For no texts there are no embeddings, and nothing is asked. For any others the service is asked
    once at most, with a body that is read as an object with exactly these texts under the name of
    its form, and with the model unless the form leaves it out. The embeddings are the vectors of a
    response that answers, in their order. Whatever else comes, embedding fails. -/
theorem embed_trace (transport : Transport (StateM σ)) (texts : List String) (s : σ) :
    let run := (e.embed transport.recorded texts).run (s, [])
    run.2.2 = (if texts.isEmpty ∨ ¬e.sendable then [] else [e.request texts]) ∧
      Decoder.value.decode (Text.bytes (e.request texts).body) =
        .ok (e.format.payload e.model texts) ∧
      (∃ members, e.format.payload e.model texts = .object members ∧ (members.map (·.1)).Nodup ∧
        lastMember? e.format.textsName members = some (.array (texts.map .string)) ∧
        lastMember? "model" members =
          if e.format = .huggingface then none else some (.string e.model)) ∧
      (∀ embeddings, run.1 = .ok embeddings ↔
        if texts.isEmpty then embeddings = []
        else ∃ response vectors, e.response? transport texts s = some response ∧
          response.Answers texts.length vectors ∧ embeddings = vectors.map Embedding.mk) ∧
      ((∃ embeddings, run.1 = .ok embeddings) ∨
        ∃ fault, run.1 = .error (.embeddingFailure fault)) := by
  rw [e.embed_recorded_run]
  exact ⟨rfl, e.decode_body texts, e.format.exists_payload_eq_object e.model texts,
    e.embed_eq_ok_iff transport texts s, e.embed_outcome transport texts s⟩

end RemoteEmbedder

end SchemaMatch

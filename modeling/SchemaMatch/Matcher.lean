import SchemaMatch.Provider.Basic
import SchemaMatch.Settings.Matching
import SchemaMatch.Recommendations

/-!
# Matchers

A matcher has a provider of embeddings and settings that were found to be valid. For a payload it
asks for the embeddings of all fields in one batch and, once these were found to be usable, for
those of all API methods in another; it then scores all pairs, selects candidates for each field,
and groups them by API name. A failure on the way is the whole result.
-/

namespace SchemaMatch

/-- A provider of embeddings, with valid settings. -/
structure Matcher (m : Type → Type) where
  provider : Provider m
  settings : MatchingSettings
  valid : settings.validate = .ok ()

/-- The first fault of the embeddings of a batch of texts, which must be as many as the texts, and
    each of them not empty, finite and of a dimension. -/
def checkVectors (dimension : Nat) : List (String × Embedding) → Except Error Unit
  | [] => .ok ()
  | (text, v) :: later =>
    if v.isEmpty then .error (.embeddingFailure (.emptyVector text))
    else if ¬v.isFinite then .error (.embeddingFailure (.nonFiniteVector text))
    else if v.dimension ≠ dimension then .error (.dimensionMismatch dimension v.dimension)
    else checkVectors dimension later

/-- The embeddings of a batch of texts if they can be used. Their dimension is the one expected, or
    else that of the first of them. -/
def checkBatch (texts : List String) (expected : Option Nat) (vectors : List Embedding) :
    Except Error (List Embedding) := do
  if vectors.length ≠ texts.length then
    throw (.embeddingFailure (.batchCount vectors.length texts.length))
  let dimension := expected.getD ((vectors.head?.map Embedding.dimension).getD 0)
  checkVectors dimension (texts.zip vectors)
  return vectors

/-- The recommendations for a payload of which the embeddings are known. The columns of the scores
    are the API methods, so that there is one for every candidate. -/
def MatchingSettings.recommend (c : MatchingSettings) (r : Payload)
    (fields apis : List Embedding) : Except Error Recommendations := do
  let scores ← ScoreMatrix.build fields apis c.scoring
  let grouped := Recommendations.ofSelections r.fields.names r.apis (c.policy.select scores)
  return grouped.getD .empty

namespace Matcher

variable {m : Type → Type} [Monad m]

/-- The matcher with a provider and settings, if these are valid. -/
def ofSettings (provider : Provider m) (settings : MatchingSettings) :
    Except Error (Matcher m) :=
  match h : settings.validate with
  | .ok () => .ok ⟨provider, settings, h⟩
  | .error e => .error e

/-- Asks for the embeddings of a batch of texts, and checks them. -/
def embedBatch (r : Matcher m) (texts : List String) (expected : Option Nat) :
    m (Except Error (List Embedding)) := do
  return (← r.provider.embed texts).bind (checkBatch texts expected)

/-- The recommendations for a payload. -/
def recommend (r : Matcher m) (payload : Payload) :
    m (Except Error Recommendations) := do
  match payload.validate with
  | .error e => return .error e
  | .ok () =>
    match ← r.embedBatch payload.fields.values none with
    | .error e => return .error e
    | .ok fields =>
      match ← r.embedBatch payload.apiDescriptions (fields.head?.map Embedding.dimension) with
      | .error e => return .error e
      | .ok apis => return r.settings.recommend payload fields apis

/-- The indented text of the recommendations for the payload in a text. -/
def recommendText (r : Matcher m) (text : String) : m (Except Error String) := do
  match Payload.ofText text with
  | .error e => return .error e
  | .ok payload => return (← r.recommend payload).map Recommendations.indented

end Matcher

end SchemaMatch

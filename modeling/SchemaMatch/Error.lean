import SchemaMatch.Json.Fault
import SchemaMatch.Json.Printer

/-!
# Errors

Why a run can fail. An `Error` tells the stage that failed, with the cause where there are several.
Its words are in `Error.message` alone.
-/

namespace SchemaMatch

/-- Why texts could not be embedded. -/
inductive EmbeddingFault
  /-- No response came from the embedding service. -/
  | noResponse
  /-- The service answered with a status that is not a success. -/
  | refused (status body : String)
  /-- The response is not JSON. -/
  | notJson
  /-- The response has something else in place of the vectors. -/
  | vectorsExpected (found : Json.Value)
  /-- The response has something else in place of a vector. -/
  | vectorExpected (found : Json.Value)
  /-- A vector of the response has an item that is not a number. -/
  | numberExpected (found : Json.Value)
  /-- An item of the response is not an object. -/
  | itemNotObject
  /-- An item of the response has no vector. -/
  | vectorMissing
  /-- The response is an object of an unknown form. -/
  | unknownShape
  /-- The response has another number of vectors than there are texts. -/
  | responseCount (vectors texts : Nat)
  /-- The provider gave another number of vectors than there are texts. -/
  | batchCount (vectors texts : Nat)
  /-- The provider gave an empty vector for a text. -/
  | emptyVector (text : String)
  /-- The provider gave a vector for a text that has a component which is not finite. -/
  | nonFiniteVector (text : String)
  /-- Any other failure of a provider. -/
  | other (detail : String)

/-- Why settings cannot be used. -/
inductive SettingsFault
  /-- The hashing embedder has no dimension. -/
  | zeroDimension
  /-- The http provider has no endpoint. -/
  | endpointMissing
  /-- The http provider has no time to wait. -/
  | zeroTimeout
  /-- No candidate at all is asked for. -/
  | zeroTopK
  /-- A layer of the projection has no width. -/
  | zeroLayerWidth
  /-- The input of the projection has no width. -/
  | zeroInputWidth
  /-- The threshold is not finite. -/
  | threshold (x : Float)
  /-- The text of the settings cannot be read. -/
  | unreadable (detail : String)
  /-- The settings in a file cannot be used. -/
  | inFile (path : String) (fault : SettingsFault)
  /-- Any other fault. -/
  | other (detail : String)

/-- Why a file cannot be read or written. -/
inductive IoFault
  | notFound
  | isDirectory
  | notDirectory
  /-- The file is not UTF-8. -/
  | notUtf8
  /-- Any other fault. -/
  | other (detail : String)

/-- The name of the collection of fields. -/
def fieldCollection : String := "fieldDescriptions"

/-- The name of the collection of API methods. -/
def apiCollection : String := "apiMethods"

/-- Why a run failed. -/
inductive Error
  /-- The payload cannot be read. -/
  | malformedInput (detail : String)
  /-- A collection of the payload is empty. -/
  | emptyInput (collection : String)
  /-- Texts could not be embedded. -/
  | embeddingFailure (fault : EmbeddingFault)
  /-- A vector or a row has another length than those before it. -/
  | dimensionMismatch (expected actual : Nat)
  /-- The settings cannot be used. -/
  | invalidSettings (fault : SettingsFault)
  /-- The recommendations could not be written. -/
  | serialization (detail : String)
  /-- A file could not be read or written. -/
  | io (fault : IoFault)

/-- The words for a fault of an embedding. -/
def EmbeddingFault.message : EmbeddingFault → String
  | .noResponse => "HTTP request failed"
  | .refused status body => s!"HTTP error {status}: {body}"
  | .notJson => "invalid JSON response: error decoding response body"
  | .vectorsExpected found =>
    "expected an array of embedding vectors, got " ++ found.canonical.compact
  | .vectorExpected found => "embedding vector must be an array, got " ++ found.canonical.compact
  | .numberExpected found => "embedding entries must be numbers, got " ++ found.canonical.compact
  | .itemNotObject => "unexpected entry inside `data` array"
  | .vectorMissing => "missing `embedding` field in data item"
  | .unknownShape => "unsupported API response shape"
  | .responseCount vectors texts => s!"API returned {vectors} embeddings for {texts} inputs"
  | .batchCount vectors texts => s!"provider returned {vectors} vectors for {texts} texts"
  | .emptyVector text => "empty vector for text " ++ Text.quoted text
  | .nonFiniteVector text => "non-finite vector for text " ++ Text.quoted text
  | .other detail => detail

/-- The words for a number that is not finite. -/
def nonFiniteWord (x : Float) : String :=
  if x.isNaN then "NaN" else if x < 0 then "-inf" else "inf"

/-- The words for a fault of settings. -/
def SettingsFault.message : SettingsFault → String
  | .zeroDimension => "hashing embedder dimension must be positive"
  | .endpointMissing => "endpoint is required for the http provider"
  | .zeroTimeout => "timeoutSecs must be positive"
  | .zeroTopK => "top-k must be at least 1"
  | .zeroLayerWidth => "projection layer widths must be positive"
  | .zeroInputWidth => "projection input width must be positive"
  | .threshold x => "threshold must be a finite number, got " ++ nonFiniteWord x
  | .unreadable detail => detail
  | .inFile path fault => path ++ ": Invalid configuration: " ++ fault.message
  | .other detail => detail

/-- The words for a fault of a file. -/
def IoFault.message : IoFault → String
  | .notFound => "No such file or directory (os error 2)"
  | .isDirectory => "Is a directory (os error 21)"
  | .notDirectory => "Not a directory (os error 20)"
  | .notUtf8 => "stream did not contain valid UTF-8"
  | .other detail => detail

/-- The words for an error. -/
def Error.message : Error → String
  | .malformedInput detail => "Malformed input: " ++ detail
  | .emptyInput collection => s!"Empty input: {collection} must contain at least one entry"
  | .embeddingFailure fault => "Embedding failure: " ++ fault.message
  | .dimensionMismatch expected actual =>
    s!"Dimension mismatch: expected {expected}, got {actual}"
  | .invalidSettings fault => "Invalid configuration: " ++ fault.message
  | .serialization detail => "Serialization error: " ++ detail
  | .io fault => "IO error: " ++ fault.message

/-! ## Names -/

/-- A name that a table of names does not have. -/
structure UnknownName where
  /-- What the name was to be the name of. -/
  kind : String
  /-- The name. -/
  given : String
  /-- The names that were expected. -/
  expected : String

/-- The words for an unknown name. -/
def UnknownName.message (e : UnknownName) : String :=
  s!"unknown {e.kind} '{e.given}' (expected {e.expected})"

/-- Looks up a name, whatever its letter case, in a table of lower-case names. -/
def lookupName {α : Type} (kind expected : String) (table : List (String × α)) (text : String) :
    Except UnknownName α :=
  let name := text.map Char.toLower
  match table.lookup name with
  | some value => .ok value
  | none => .error ⟨kind, name, expected⟩

end SchemaMatch

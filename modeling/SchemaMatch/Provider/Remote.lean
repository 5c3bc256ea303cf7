import SchemaMatch.Json.Reader.Value
import SchemaMatch.Provider.Basic
import SchemaMatch.Text.Utf8

/-!
# The http embedder

A batch of texts is sent to a service in one request, and its response is read. There are three
forms of the request (`Dialect`). Whatever the form, a response may be a list of vectors, an object
that has this list under `embeddings`, or an object that has under `data` a list of items with a
vector each; such items may say their place by an index, and stand by it in the result.

What carries a request to the service and its response back is a parameter (`Transport`).
-/

namespace SchemaMatch

/-- The form of a request to an embedding service. -/
inductive Dialect
  /-- The texts under `input`, beside the model. -/
  | openai
  /-- The texts under `inputs`. -/
  | huggingface
  /-- The texts under `texts`, beside the model. -/
  | custom
  deriving DecidableEq

namespace Dialect

/-- The name of a form. -/
def name : Dialect → String
  | .openai => "openai"
  | .huggingface => "huggingface"
  | .custom => "custom"

/-- The forms under their names. -/
def table : List (String × Dialect) :=
  [openai, huggingface, custom].map fun f => (f.name, f)

/-- The form that a name stands for. -/
def ofName (text : String) : Except UnknownName Dialect :=
  lookupName "api format" "openai, huggingface or custom" (table ++ [("hf", huggingface)]) text

/-- Reads a form. -/
def decoder : Json.Decoder Dialect := .named table

/-- The JSON form of a form. -/
def toJson (f : Dialect) : Json.Value := .string f.name

/-- What is sent for some texts. -/
def payload (f : Dialect) (model : String) (texts : List String) : Json.Value :=
  let texts := Json.Value.array (texts.map .string)
  match f with
  | .openai => .object [("input", texts), ("model", .string model)]
  | .huggingface => .object [("inputs", texts)]
  | .custom => .object [("model", .string model), ("texts", texts)]

end Dialect

/-! ## Requests and responses -/

/-- A request to a service. -/
structure HttpRequest where
  method : String
  /-- Where the service is. -/
  endpoint : String
  /-- The value of the `Authorization` header, if there is one. -/
  authorization : Option String
  contentType : String
  body : String

/-- A response of a service. -/
structure HttpResponse where
  status : Nat
  body : List UInt8

/-- Carries a request to a service, and brings its response back, if there is one. -/
def Transport (m : Type → Type) := HttpRequest → m (Option HttpResponse)

/-- Whether a text may be the value of a header: it has no control characters but the tab. -/
def isHeaderValue (text : String) : Bool :=
  text.toList.all fun c => c = '\t' ∨ (' ' ≤ c ∧ c ≠ '\x7f')

/-- The standard phrases for statuses. -/
def reasonPhrases : List (Nat × String) :=
  [ (100, "Continue"), (101, "Switching Protocols"), (102, "Processing"), (103, "Early Hints"),
    (200, "OK"), (201, "Created"), (202, "Accepted"), (203, "Non Authoritative Information"),
    (204, "No Content"), (205, "Reset Content"), (206, "Partial Content"), (207, "Multi-Status"),
    (208, "Already Reported"), (226, "IM Used"), (300, "Multiple Choices"),
    (301, "Moved Permanently"), (302, "Found"), (303, "See Other"), (304, "Not Modified"),
    (305, "Use Proxy"), (307, "Temporary Redirect"), (308, "Permanent Redirect"),
    (400, "Bad Request"), (401, "Unauthorized"), (402, "Payment Required"), (403, "Forbidden"),
    (404, "Not Found"), (405, "Method Not Allowed"), (406, "Not Acceptable"),
    (407, "Proxy Authentication Required"), (408, "Request Timeout"), (409, "Conflict"),
    (410, "Gone"), (411, "Length Required"), (412, "Precondition Failed"),
    (413, "Payload Too Large"), (414, "URI Too Long"), (415, "Unsupported Media Type"),
    (416, "Range Not Satisfiable"), (417, "Expectation Failed"), (418, "I'm a teapot"),
    (421, "Misdirected Request"), (422, "Unprocessable Entity"), (423, "Locked"),
    (424, "Failed Dependency"), (425, "Too Early"), (426, "Upgrade Required"),
    (428, "Precondition Required"), (429, "Too Many Requests"),
    (431, "Request Header Fields Too Large"), (451, "Unavailable For Legal Reasons"),
    (500, "Internal Server Error"), (501, "Not Implemented"), (502, "Bad Gateway"),
    (503, "Service Unavailable"), (504, "Gateway Timeout"), (505, "HTTP Version Not Supported"),
    (506, "Variant Also Negotiates"), (507, "Insufficient Storage"), (508, "Loop Detected"),
    (510, "Not Extended"), (511, "Network Authentication Required") ]

/-- A status with its phrase. -/
def statusLine (status : Nat) : String :=
  s!"{status} " ++ (reasonPhrases.lookup status).getD "<unknown status code>"

/-- Whether a response of this status has no body, whatever follows its header. -/
def isBodyless (status : Nat) : Bool :=
  status < 200 ∨ status = 204 ∨ status = 304

/-! ## Vectors in a response -/

/-- The single-precision number that an item of a vector is. -/
def componentOfJson : Json.Value → Except EmbeddingFault Float32
  | .number n => .ok (narrow n.toDouble)
  | other => .error (.numberExpected other)

/-- The vector that a value is. -/
def vectorOfJson : Json.Value → Except EmbeddingFault (List Float32)
  | .array items => items.mapM componentOfJson
  | other => .error (.vectorExpected other)

/-- Whether a value is an array. -/
def isArray : Json.Value → Bool
  | .array _ => true
  | _ => false

/-- The vectors that a value is a list of. -/
def vectorsOfJson : Json.Value → Except EmbeddingFault (List (List Float32))
  | .array items =>
    if items.all isArray then items.mapM vectorOfJson
    else .error (.vectorsExpected (.array items))
  | other => .error (.vectorsExpected other)

/-- The natural number that a value is. -/
def naturalOfJson? : Json.Value → Option Nat
  | .number (.whole n) => if 0 ≤ n then some n.toNat else none
  | _ => none

/-- The vector of an item, with the place it stands by: its index, or else its position. -/
def itemOfJson (position : Nat) : Json.Value → Except EmbeddingFault (Nat × List Float32)
  | .object members =>
    match Json.lastMember? "embedding" members with
    | none => .error .vectorMissing
    | some vector =>
      (vectorOfJson vector).map fun v =>
        (((Json.lastMember? "index" members).bind naturalOfJson?).getD position, v)
  | _ => .error .itemNotObject

/-- The vectors of some items, by their places; items of one place stay in order. -/
def itemsOfJson (items : List Json.Value) : Except EmbeddingFault (List (List Float32)) :=
  (items.zipIdx.mapM fun entry => itemOfJson entry.2 entry.1).map fun placed =>
    (placed.mergeSort fun p q => p.1 ≤ q.1).map (·.2)

/-- The vectors that a response has. -/
def responseVectors : Json.Value → Except EmbeddingFault (List (List Float32))
  | .object members =>
    match Json.lastMember? "embeddings" members, Json.lastMember? "data" members with
    | some vectors, _ => vectorsOfJson vectors
    | none, some (.array items) => itemsOfJson items
    | none, _ => .error .unknownShape
  | other => vectorsOfJson other

/-- The embeddings that a response gives for a number of texts. -/
def HttpResponse.embeddings (r : HttpResponse) (texts : Nat) :
    Except EmbeddingFault (List Embedding) := do
  let body := if isBodyless r.status then [] else r.body
  if ¬(200 ≤ r.status ∧ r.status ≤ 299) then
    throw (.refused (statusLine r.status) (Text.lossy body))
  match Json.Decoder.value.decode body with
  | .error _ => throw .notJson
  | .ok value =>
    let vectors ← responseVectors value
    if vectors.length ≠ texts then throw (.responseCount vectors.length texts)
    return vectors.map Embedding.mk

/-! ## The embedder -/

/-- An embedder that asks a service. -/
structure RemoteEmbedder where
  endpoint : String
  model : String
  format : Dialect
  authorization : Option String
  device : Device

namespace RemoteEmbedder

/-- The request for some texts. -/
def request (e : RemoteEmbedder) (texts : List String) : HttpRequest where
  method := "POST"
  endpoint := e.endpoint
  authorization := e.authorization
  contentType := "application/json"
  body := (e.format.payload e.model texts).compact

/-- The embeddings of some texts. Nothing is sent for no texts, or if the header cannot be sent. -/
def embed {m : Type → Type} [Monad m] (transport : Transport m) (e : RemoteEmbedder)
    (texts : List String) : m (Except Error (List Embedding)) := do
  if texts.isEmpty then return .ok []
  else if ¬e.authorization.all isHeaderValue then return .error (.embeddingFailure .noResponse)
  else
    match ← transport (e.request texts) with
    | none => return .error (.embeddingFailure .noResponse)
    | some response => return (response.embeddings texts.length).mapError .embeddingFailure

/-- What the embedder is. -/
def info (e : RemoteEmbedder) : ProviderIdentity :=
  ⟨"http", e.model, none, e.device⟩

/-- The embedder as a provider. -/
def provider {m : Type → Type} [Monad m] (transport : Transport m) (e : RemoteEmbedder) :
    Provider m where
  info := e.info
  embed := e.embed transport

end RemoteEmbedder

end SchemaMatch

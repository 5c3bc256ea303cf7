import SchemaMatch.Error
import SchemaMatch.Json.Record
import SchemaMatch.Table
import SchemaMatch.Text.Utf8

/-!
# Payloads

The payload of a run is a schema, which describes some fields, and the API methods that may supply
them. The fields of a schema have distinct names (`Schema`): a name that is repeated keeps its first
place and takes its last description. The names of API methods may be repeated.
-/

namespace SchemaMatch

/-- A schema: the descriptions of its fields, under their names. -/
abbrev Schema := Table String

namespace Schema

open Json Reader in
/-- Takes a field after its name. -/
def member (fields : Schema) (name : String) : Reader Schema := do
  colon
  return fields.insert name (← Decoder.stringOf "a string")

open Json Reader in
/-- Reads a schema from an object. -/
def decoder : Decoder Schema := fun depth => do
  if (← peekValue) = Byte.openBrace then nested (fun _ => members member .empty) depth
  else Decoder.mismatch "an object mapping field names to description strings"

/-- The JSON form of a schema. -/
def toJson (fields : Schema) : Json.Value :=
  .object (fields.entries.map fun entry => (entry.1, .string entry.2))

end Schema

/-- An API method. -/
structure Method where
  name : String
  description : String
  deriving DecidableEq

namespace Method

open Json in
/-- The fields of an API method. -/
def record : Record Method where
  title := "ApiMethod"
  fields :=
    [ Record.field "Name" .required Decoder.string fun api name => { api with name },
      Record.field "Description" .required Decoder.string
        fun api description => { api with description } ]
  blank := ⟨"", ""⟩

/-- The JSON form of an API method. -/
def toJson (api : Method) : Json.Value :=
  .object [("Name", .string api.name), ("Description", .string api.description)]

end Method

/-- The payload of a run. -/
structure Payload where
  /-- The fields, with their descriptions. -/
  fields : Schema
  /-- The API methods. -/
  apis : List Method

namespace Payload

/-- The descriptions of the API methods. -/
def apiDescriptions (r : Payload) : List String :=
  r.apis.map (·.description)

open Json in
/-- The fields of a payload. -/
def record : Record Payload where
  title := "MatchRequest"
  fields :=
    [ Record.field "fieldDescriptions" .required Schema.decoder
        fun r fields => { r with fields },
      Record.field "apiMethods" .required (Decoder.list Method.record.decoder)
        fun r apis => { r with apis } ]
  blank := ⟨.empty, []⟩

/-- The JSON form of a payload. -/
def toJson (r : Payload) : Json.Value :=
  .object
    [("fieldDescriptions", r.fields.toJson), ("apiMethods", .array (r.apis.map Method.toJson))]

/-- The payload in a text. -/
def ofText (text : String) : Except Error Payload :=
  (record.decoder.decode (Text.bytes text)).mapError fun fault => .malformedInput fault.message

/-- The payload in a stream of bytes. -/
def ofStream (bytes : List UInt8) : Except Error Payload :=
  (record.decoder.decodeStream bytes).mapError fun fault => .malformedInput fault.message

/-- A payload needs a field and an API method. -/
def validate (r : Payload) : Except Error Unit :=
  if r.fields.isEmpty then .error (.emptyInput fieldCollection)
  else if r.apis.isEmpty then .error (.emptyInput apiCollection)
  else .ok ()

end Payload

end SchemaMatch

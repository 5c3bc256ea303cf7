import SchemaMatch.Payload
import SchemaMatch.Selection

/-!
# Recommendations

The fields recommended for each API name, with their scores: a table in order of first insertion, in
which no name is without a field. Scores are first collected as they come (`push`), so that a field
may come several times under a name; `keepBest` then leaves each field its greatest score, at the
place where it first came.
-/

namespace SchemaMatch

/-- A field recommended for an API. -/
structure Recommendation where
  field : String
  score : Float

namespace Recommendation

open Json in
/-- The fields of a recommendation. -/
def record : Record Recommendation where
  title := "Recommendation"
  fields :=
    [ Record.field "field" .required Decoder.string fun r field => { r with field },
      Record.field "score" .required Decoder.double fun r score => { r with score } ]
  blank := ⟨"", 0⟩

/-- The JSON form of a recommendation. -/
def toJson (r : Recommendation) : Json.Value :=
  .object [("field", .string r.field), ("score", .ofDouble r.score)]

/-- Whether two recommendations are of one field and have equal scores, as numbers. -/
instance : BEq Recommendation := ⟨fun r s => r.field == s.field && r.score == s.score⟩

end Recommendation

/-- The fields recommended for each API name. -/
abbrev Recommendations := Table (List Recommendation)

namespace Recommendations

/-- Adds a field under an API name, at the end. -/
def push (rs : Recommendations) (api field : String) (score : Float) : Recommendations :=
  rs.change api fun held => held.getD [] ++ [⟨field, score⟩]

/-- Puts a recommendation into a list of distinct fields: at the end if its field is new, and else
    in place of a lower score. -/
def raise (r : Recommendation) : List Recommendation → List Recommendation
  | [] => [r]
  | held :: later =>
    if held.field = r.field then
      (if held.score < r.score then { held with score := r.score } else held) :: later
    else held :: raise r later

/-- The distinct fields of a list, each at its first place with its greatest score. -/
def bestOfEachField (entries : List Recommendation) : List Recommendation :=
  entries.foldl (fun kept r => raise r kept) []

/-- Leaves each field once under each name, with its greatest score. -/
def keepBest (rs : Recommendations) : Recommendations :=
  rs.map bestOfEachField

/-- The number of fields under all names. -/
def totalEntries (rs : Recommendations) : Nat :=
  rs.values.foldl (fun total held => total + held.length) 0

/-- Adds a field under the names of the API methods selected for it, if all of these exist. -/
def pushSelection (apis : List Method) (rs : Recommendations) (field : String)
    (selection : List Candidate) : Option Recommendations :=
  selection.foldlM (fun rs c => do
    let api ← apis[c.column]?
    return rs.push api.name field c.score) rs

/-- The recommendations that selections for each field amount to, if all API methods that are
    selected exist. -/
def ofSelections (fields : List String) (apis : List Method)
    (selections : List (List Candidate)) : Option Recommendations := do
  let rs ← (fields.zip selections).foldlM
    (fun rs entry => pushSelection apis rs entry.1 entry.2) Table.empty
  return rs.keepBest

/-! ## Writing -/

/-- The JSON form of recommendations. -/
def toJson (rs : Recommendations) : Json.Value :=
  .object (rs.entries.map fun entry => (entry.1, .array (entry.2.map Recommendation.toJson)))

/-- The compact text of recommendations. -/
def compact (rs : Recommendations) : String := rs.toJson.compact

/-- The indented text of recommendations. -/
def indented (rs : Recommendations) : String := rs.toJson.indented

end Recommendations

/-- Something that takes bytes. -/
structure Sink where
  /-- The number of bytes that it takes, if there is a limit. -/
  capacity : Option Nat
  /-- What it reports where it is full. -/
  fullFault : IoFault
  /-- Whether it can be told that all was written. -/
  flushes : Bool
  /-- What it reports where it cannot. -/
  flushFault : IoFault

/-- A sink that takes everything. -/
def Sink.unlimited : Sink := ⟨none, .other "", true, .other ""⟩

/-- Tells the sink that all was written. -/
def Sink.flush (sink : Sink) : Except IoFault Unit :=
  if sink.flushes then .ok () else .error sink.flushFault

/-- Writes the indented text and a line feed, and gives the bytes taken: the text must fit, then the
    line feed, and then the sink must accept the end. -/
def Recommendations.write (rs : Recommendations) (sink : Sink) : Except Error Unit × List UInt8 :=
  let text := Text.bytes rs.indented
  let all := text ++ [0x0A]
  let finish := sink.flush.mapError .io
  match sink.capacity with
  | some capacity =>
    if capacity < text.length then
      (.error (.serialization sink.fullFault.message), all.take capacity)
    else if capacity < all.length then (.error (.io sink.fullFault), all.take capacity)
    else (finish, all)
  | none => (finish, all)

end SchemaMatch

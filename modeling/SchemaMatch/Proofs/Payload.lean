import SchemaMatch.Payload
import SchemaMatch.Proofs.Json.Collections
import SchemaMatch.Proofs.Table

/-!
# Payloads are read as they were written

A payload is read from its compact text as the same payload, and more: the text may give the
description of a field several times (`Payload.spelled`), and then the schema is the one made by
inserting the descriptions one after the other. So a field has the place of its first description
(`Table.names_ofList`) and the last one itself (`Table.get?_ofList`).
-/

namespace SchemaMatch

open Json Reader Text

variable {form : Spacing} {depth levels : Nat}

/-! ## Schemas -/

namespace Schema

variable {σ : Type}

/-- The JSON form of descriptions under names, which may be repeated. -/
def spelled (entries : List (String × String)) : Json.Value :=
  .object (entries.map fun entry => (entry.1, .string entry.2))

/-- Takes a description after the name of its field, and puts it into what is held. -/
def memberInto (put : σ → String → String → σ) (held : σ) (name : String) : Reader σ := do
  colon
  return put held name (← Decoder.stringOf "a string")

/-- Reads an object of descriptions, which are put one after the other into what is held at the
    start. -/
def reader (put : σ → String → String → σ) (start : σ) : Decoder σ := fun depth => do
  if (← peekValue) = Byte.openBrace then
    nested (fun _ => members (memberInto put) start) depth
  else Decoder.mismatch "an object mapping field names to description strings"

/-- A schema is read by inserting the descriptions into an empty one. -/
theorem decoder_eq_reader (depth : Nat) :
    decoder depth = reader Table.insert (.empty : Schema) depth := rfl

/-- Descriptions are put one after the other into what is held. -/
theorem gathers_descriptions (h : form.Blank) (put : σ → String → String → σ)
    (entries : List (String × String)) (held : σ) :
    Gathers (memberEntry (memberInto put)) held
      (entries.map fun entry => form.member entry.1 (stringChars entry.2))
      (entries.foldl (fun held entry => put held entry.1 entry.2) held) := by
  induction entries generalizing held with
  | nil => exact .nil
  | cons entry later ih =>
    have hentry := (Decoder.reads_stringOf "a string" entry.2).map (put held entry.1)
    exact .cons (reads_memberEntry_written h rfl hentry) (ih _)

theorem reads_reader (h : form.Blank) (put : σ → String → String → σ)
    (entries : List (String × String)) (start : σ) :
    (reader put start (levels + 1)).Reads ((spelled entries).chars form depth)
      (entries.foldl (fun held entry => put held entry.1 entry.2) start) := by
  rw [spelled, Value.chars, memberChars_eq_map, List.map_map, Spacing.enclose_eq]
  exact reads_bracket (.inr rfl) (if_pos (by decide))
    (gives_members (gathers_descriptions h put entries start) (h.inside _ _ _))

theorem reads_decoder (h : form.Blank) (entries : List (String × String)) :
    (decoder (levels + 1)).Reads ((spelled entries).chars form depth) (Table.ofList entries) := by
  rw [decoder_eq_reader]
  exact reads_reader h Table.insert entries .empty

end Schema

theorem Method.reads_decoder (h : form.Blank) (api : Method) :
    (Method.record.decoder (levels + 1)).Reads (api.toJson.chars form depth) api :=
  Method.record.reads_decoder h (by decide)
    (.cons ((Decoder.reads_string _ _).map _) (.cons ((Decoder.reads_string _ _).map _) .nil))

/-! ## Payloads -/

namespace Payload

/-- The JSON form of a payload of which the fields are described one after the other. -/
def spelled (entries : List (String × String)) (apis : List Method) : Json.Value :=
  .object
    [("fieldDescriptions", Schema.spelled entries), ("apiMethods", .array (apis.map Method.toJson))]

theorem reads_decoder (h : form.Blank) (entries : List (String × String)) (apis : List Method) :
    (Payload.record.decoder (levels + 3)).Reads ((spelled entries apis).chars form depth)
      ⟨Table.ofList entries, apis⟩ := by
  have hapis : List.Forall₂ (Method.record.decoder (levels + 1)).Reads
      (itemChars form (depth + 2) (apis.map Method.toJson)) apis := by
    rw [itemChars_eq_map, List.map_map, List.forall₂_map_left_iff, List.forall₂_same]
    exact fun api _ => api.reads_decoder h
  exact Payload.record.reads_decoder h (by decide)
    (.cons ((Schema.reads_decoder h entries).map _)
      (.cons ((Decoder.reads_list_written h hapis).map _) .nil))

/-- A payload is read from its compact text. Where the text repeats the name of a field, the field
    has the place of its first description, and its last description. -/
theorem ofText_compact :
    (∀ (entries : List (String × String)) (apis : List Method),
      ofText (spelled entries apis).compact = .ok ⟨Table.ofList entries, apis⟩ ∧
        (Table.ofList entries).names = (entries.map (·.1)).eraseDups ∧
        ∀ name, (Table.ofList entries).get? name = entries.reverse.lookup name) ∧
      ∀ r : Payload, ofText r.toJson.compact = .ok r := by
  have hread : ∀ entries apis,
      ofText (spelled entries apis).compact = .ok ⟨Table.ofList entries, apis⟩ := by
    intro entries apis
    rw [ofText, Value.compact, bytes_ofList,
      Decoder.decode_encoded (reads_decoder blank_compact entries apis)]
    rfl
  refine ⟨fun entries apis =>
    ⟨hread entries apis, Table.names_ofList entries, Table.get?_ofList entries⟩, fun r => ?_⟩
  have hfields : Table.ofList r.fields.entries = r.fields :=
    Table.ext (Table.entries_ofList r.fields.distinct)
  have hr := hread r.fields.entries r.apis
  rw [hfields] at hr
  exact hr

end Payload

end SchemaMatch

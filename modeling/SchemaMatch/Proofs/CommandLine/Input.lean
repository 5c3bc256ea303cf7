import SchemaMatch.CommandLine.Session
import SchemaMatch.Proofs.Json.Faults
import SchemaMatch.Proofs.Json.Streaming

/-!
# Payloads from texts and from streams

A payload is read from the standard input as a text and from a file as a stream of bytes. The
readers of the two look ahead in ways of their own, but come to the same
(`Decoder.decodeStream_agrees`): the same payloads are read, and the same reasons are given for the
others. Only the place of a fault may be one byte further on in a stream, which counts a byte as
passed once it was looked at (`Payload.Agree`). None of the reasons is that the bytes are not UTF-8,
although each string is cut out of them before it is looked at as a text.
-/

namespace SchemaMatch

open Json

namespace Payload

theorem safe_decoder : record.decoder.Safe := by
  have hschema : Schema.decoder.Safe := by
    intro depth
    refine Reader.safe_peekValue.bind fun _ => .ite ?_ (Decoder.safe_mismatch _)
    refine .nested (fun _ => .members (fun fields name => ?_) _) depth
    exact Reader.safe_colon.bind fun _ => (Decoder.safe_stringOf _).bind fun _ => Reader.safe_pure _
  have hmethod : Method.record.decoder.Safe := by
    refine Record.safe_decoder fun field hfield r => ?_
    simp only [Method.record, List.mem_cons, List.not_mem_nil, or_false] at hfield
    rcases hfield with rfl | rfl <;> exact Record.safe_field Decoder.safe_string r
  refine Record.safe_decoder fun field hfield r => ?_
  simp only [record, List.mem_cons, List.not_mem_nil, or_false] at hfield
  rcases hfield with rfl | rfl
  · exact Record.safe_field hschema r
  · exact Record.safe_field hmethod.list r

/-- Whether two readings of some bytes agree, given what becomes of the words for a fault: both have
    the same payload, or both refuse the bytes for the same reason, the second one in the same place
    or one byte further on. -/
inductive Agree {ε : Type} (malformed : String → ε) (bytes : List UInt8) :
    Except ε Payload → Except ε Payload → Prop
  | read (r : Payload) : Agree malformed bytes (.ok r) (.ok r)
  | refused {reason : Reason} {passed further : Nat} :
    reason ≠ .invalidUtf8 → passed ≤ further → further ≤ passed + 1 → further ≤ bytes.length →
    Agree malformed bytes
      (.error (malformed (reason.placed (.behind (bytes.take passed)))))
      (.error (malformed (reason.placed (.behind (bytes.take further)))))

theorem Agree.mapError {ε δ : Type} {malformed : String → ε} {bytes : List UInt8}
    {first second : Except ε Payload} (h : Agree malformed bytes first second) (f : ε → δ) :
    Agree (fun words => f (malformed words)) bytes (first.mapError f) (second.mapError f) := by
  cases h with
  | read r => exact .read r
  | refused hreason hle hnext hlength => exact .refused hreason hle hnext hlength

theorem Agree.eq_ok {ε : Type} {malformed : String → ε} {bytes : List UInt8}
    {first second : Except ε Payload} (h : Agree malformed bytes first second) {r : Payload}
    (hsecond : second = .ok r) : first = .ok r := by
  cases h with
  | read => exact hsecond
  | refused => exact nomatch hsecond

/-- A text and a stream of its bytes agree. -/
theorem agree_ofStream (text : String) :
    Agree .malformedInput (Text.bytes text) (ofText text) (ofStream (Text.bytes text)) := by
  rw [ofText, ofStream]
  rcases record.decoder.decodeStream_agrees (Text.bytes text) with
    ⟨r, hread, hstreamed⟩ | ⟨reason, passed, place, hread, hstreamed, hplace⟩
  · rw [hread, hstreamed]
    exact .read r
  · have hreason : reason ≠ .invalidUtf8 := Decoder.reason_ne_of_decode safe_decoder hread
    obtain ⟨further, hle, hnext, hlength, rfl⟩ := hplace hreason
    rw [hread, hstreamed]
    exact .refused hreason hle hnext hlength

end Payload

namespace CommandLine

/-- The bytes that the payload of a run is read from. -/
def payloadBytes (s : Surroundings) (a : Arguments) : Except IoFault (List UInt8) :=
  match a.input with
  | some path => s.content path
  | none => .ok s.standardInput

/-- From the standard input a payload is read as a text. -/
theorem payload_of_standardInput {s : Surroundings} {a : Arguments} (hinput : a.input = none)
    {text : String} (htext : s.standardInput = Text.bytes text) :
    payload s a = (Payload.ofText text).mapError Error.message := by
  simp only [payload, hinput, htext, Text.ofBytes?_bytes]

/-- From a file a payload is read as a stream. -/
theorem payload_of_file {s : Surroundings} {a : Arguments} {path : String}
    (hinput : a.input = some path) {bytes : List UInt8} (hbytes : s.content path = .ok bytes) :
    payload s a = (Payload.ofStream bytes).mapError Error.message := by
  simp only [payload, hinput, hbytes, payloadOfFile]

end CommandLine

open CommandLine in
/-- A text and a stream or a file of its bytes give equal payloads or fail for the same reason, and
    so do runs that read the text from the standard input and from a file. -/
theorem Payload.ofText_agrees (text : String) :
    Agree .malformedInput (Text.bytes text) (ofText text) (ofStream (Text.bytes text)) ∧
      Agree .malformedInput (Text.bytes text) (ofText text)
        (payloadOfFile (.ok (Text.bytes text))) ∧
      ∀ (s : Surroundings) (a : Arguments) (path : String),
        Agree (fun words => (Error.malformedInput words).message) (Text.bytes text)
          (payload { s with standardInput := Text.bytes text } { a with input := none })
          (payload { s with content := fun _ => .ok (Text.bytes text) }
            { a with input := some path }) := by
  have hagree := agree_ofStream text
  refine ⟨hagree, hagree, fun s a path => ?_⟩
  rw [payload_of_standardInput rfl rfl, payload_of_file rfl rfl]
  exact hagree.mapError Error.message

end SchemaMatch

import SchemaMatch.Text.Utf8

/-!
# SipHash-1-3

The keyed hash function SipHash with one round for each word of the message and three rounds at the
end, for the all-zero key. The message is taken as little-endian 64-bit words; the last word has the
bytes left over and, in its top byte, the length of the message.
-/

namespace SchemaMatch.Hash

/-- The four words of the state. -/
structure Sip where
  v0 : UInt64
  v1 : UInt64
  v2 : UInt64
  v3 : UInt64

namespace Sip

/-- A word rotated to the left. -/
def rotate (x count : UInt64) : UInt64 :=
  (x <<< count) ||| (x >>> (64 - count))

/-- The state for the all-zero key. -/
def start : Sip :=
  ⟨0x736F6D6570736575, 0x646F72616E646F6D, 0x6C7967656E657261, 0x7465646279746573⟩

/-- One round. -/
def round (s : Sip) : Sip :=
  let v0 := s.v0 + s.v1
  let v1 := rotate s.v1 13 ^^^ v0
  let v0 := rotate v0 32
  let v2 := s.v2 + s.v3
  let v3 := rotate s.v3 16 ^^^ v2
  let v0 := v0 + v3
  let v3 := rotate v3 21 ^^^ v0
  let v2 := v2 + v1
  let v1 := rotate v1 17 ^^^ v2
  let v2 := rotate v2 32
  ⟨v0, v1, v2, v3⟩

/-- Takes in a word of the message. -/
def absorb (s : Sip) (word : UInt64) : Sip :=
  let s := round { s with v3 := s.v3 ^^^ word }
  { s with v0 := s.v0 ^^^ word }

/-- The word that some bytes spell, the lowest byte first. -/
def littleEndian : List UInt8 → UInt64
  | [] => 0
  | byte :: later => byte.toUInt64 ||| (littleEndian later <<< 8)

/-- Takes in the rest of a message of the given length. -/
def absorbAll (length : Nat) (s : Sip) : List UInt8 → Sip
  | a :: b :: c :: d :: e :: f :: g :: h :: later =>
    absorbAll length (s.absorb (littleEndian [a, b, c, d, e, f, g, h])) later
  | last => s.absorb (littleEndian last ||| (length.toUInt64 <<< 56))

/-- The hash of a state that has taken in the whole message. -/
def finish (s : Sip) : UInt64 :=
  let s := { s with v2 := s.v2 ^^^ 0xFF }.round.round.round
  s.v0 ^^^ s.v1 ^^^ s.v2 ^^^ s.v3

end Sip

/-- The hash of some bytes. -/
def sip (message : List UInt8) : UInt64 :=
  (Sip.absorbAll message.length Sip.start message).finish

/-- The hash of a text: that of its UTF-8 bytes and an end mark. -/
def ofText (text : String) : UInt64 :=
  sip (Text.bytes text ++ [0xFF])

end SchemaMatch.Hash

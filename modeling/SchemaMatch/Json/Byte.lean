/-!
# Bytes of a JSON text

The bytes that mark the parts of a JSON text, and the kinds of bytes that readers tell apart.
-/

namespace SchemaMatch.Json

namespace Byte

abbrev quote : UInt8 := 0x22
abbrev plus : UInt8 := 0x2B
abbrev comma : UInt8 := 0x2C
abbrev minus : UInt8 := 0x2D
abbrev point : UInt8 := 0x2E
abbrev zero : UInt8 := 0x30
abbrev nine : UInt8 := 0x39
abbrev colon : UInt8 := 0x3A
abbrev openBracket : UInt8 := 0x5B
abbrev backslash : UInt8 := 0x5C
abbrev closeBracket : UInt8 := 0x5D
abbrev openBrace : UInt8 := 0x7B
abbrev closeBrace : UInt8 := 0x7D

/-- The byte of an ASCII character. -/
def ofChar (c : Char) : UInt8 := c.toNat.toUInt8

/-- Whether the byte is white space: a space, a line feed, a tab or a carriage return. -/
def isBlank (b : UInt8) : Bool :=
  b = 0x20 ∨ b = 0x0A ∨ b = 0x09 ∨ b = 0x0D

/-- Whether the byte is a decimal digit. -/
def isDigit (b : UInt8) : Bool :=
  zero ≤ b ∧ b ≤ nine

/-- Whether the byte starts an exponent. -/
def isExponentMark (b : UInt8) : Bool :=
  b = ofChar 'e' ∨ b = ofChar 'E'

/-- Whether the byte stands for itself in a string: it neither ends the string nor begins an escape,
    and is no control character. -/
def isPlain (b : UInt8) : Bool :=
  b ≠ quote ∧ b ≠ backslash ∧ 0x20 ≤ b

end Byte

/-- The value of a hexadecimal digit. -/
def hexDigit? (b : UInt8) : Option Nat :=
  if Byte.isDigit b then some (b.toNat - '0'.toNat)
  else if Byte.ofChar 'a' ≤ b ∧ b ≤ Byte.ofChar 'f' then some (b.toNat - 'a'.toNat + 10)
  else if Byte.ofChar 'A' ≤ b ∧ b ≤ Byte.ofChar 'F' then some (b.toNat - 'A'.toNat + 10)
  else none

/-- The number that some hexadecimal digits spell. -/
def hexNumber? (digits : List UInt8) : Option Nat :=
  digits.foldlM (fun n b => (hexDigit? b).map (n * 16 + ·)) 0

end SchemaMatch.Json

import SchemaMatch.Decimal.Layout
import SchemaMatch.Text.Quoted

/-!
# Faults of a JSON text

A text that cannot be read has a `Reason` and the place where reading stopped. What a place is
depends on what is read from: whatever else it may be while reading goes on, it becomes a line and a
column (`Position`) before the fault is put into words.
-/

namespace SchemaMatch.Json

/-- What stood where something else was expected. -/
inductive Found
  | null
  | bool (b : Bool)
  | integer (n : Int)
  | float (x : Float)
  | string (s : String)
  | sequence
  | map

/-- Why a JSON text cannot be read. -/
inductive Reason
  /-- The text ends inside an array, where an item or its end is due. -/
  | endInList
  /-- The text ends inside an object, where a member or its end is due. -/
  | endInObject
  /-- The text ends inside a string. -/
  | endInString
  /-- The text ends where a value is due. -/
  | endInValue
  | expectedColon
  | expectedCommaOrBracket
  | expectedCommaOrBrace
  /-- A word other than `null`, `true` and `false`. -/
  | unknownWord
  | expectedValue
  | invalidEscape
  | invalidNumber
  /-- A number too large for double precision. -/
  | numberOutOfRange
  /-- The bytes of a string are not UTF-8. -/
  | invalidUtf8
  | controlCharacter
  | keyNotString
  | loneSurrogate
  /-- The first half of a surrogate pair without an escape after it. -/
  | unfinishedSurrogates
  | trailingComma
  | trailingCharacters
  | tooDeep
  | invalidType (found : Found) (expected : String)
  | invalidValue (found : Found) (expected : String)
  | invalidLength (length : Nat) (expected : String)
  | unknownVariant (name : String) (known : List String)
  | missingField (name : String)
  | duplicateField (name : String)

/-- A line and a column. -/
structure Position where
  line : Nat
  column : Nat

/-- A reason with the place where reading stopped. -/
structure Fault (P : Type) where
  /-- Why the text cannot be read. -/
  reason : Reason
  /-- Where reading stopped. -/
  place : P

namespace Position

/-- The place in front of the first byte. -/
def start : Position := ⟨1, 0⟩

/-- The place behind a further byte: lines are counted from one, a line feed ends its line, and the
    column is the number of bytes passed on the line. -/
def next (place : Position) (byte : UInt8) : Position :=
  if byte = 0x0A then ⟨place.line + 1, 0⟩ else ⟨place.line, place.column + 1⟩

/-- The place behind some bytes. -/
def behind (passed : List UInt8) : Position :=
  passed.foldl next start

/-- The place some columns further in front. -/
def back (place : Position) (columns : Nat) : Position :=
  ⟨place.line, place.column - columns⟩

end Position

/-! ## Messages -/

/-- The words for what was found. -/
def Found.message : Found → String
  | .null => "null"
  | .bool b => "boolean `" ++ (if b then "true" else "false") ++ "`"
  | .integer n => "integer `" ++ toString n ++ "`"
  | .float x => "floating point `" ++ Decimal.ofDouble x ++ "`"
  | .string s => "string " ++ Text.quoted s
  | .sequence => "sequence"
  | .map => "map"

/-- A name as a message shows it. -/
def ticked (name : String) : String :=
  "`" ++ name ++ "`"

/-- The words for a choice of names. -/
def choice : List String → String
  | [] => "there are no variants"
  | [only] => "expected " ++ ticked only
  | [first, second] => "expected " ++ ticked first ++ " or " ++ ticked second
  | names => "expected one of " ++ ", ".intercalate (names.map ticked)

/-- The words for a reason. -/
def Reason.message : Reason → String
  | .endInList => "EOF while parsing a list"
  | .endInObject => "EOF while parsing an object"
  | .endInString => "EOF while parsing a string"
  | .endInValue => "EOF while parsing a value"
  | .expectedColon => "expected `:`"
  | .expectedCommaOrBracket => "expected `,` or `]`"
  | .expectedCommaOrBrace => "expected `,` or `\x7d`"
  | .unknownWord => "expected ident"
  | .expectedValue => "expected value"
  | .invalidEscape => "invalid escape"
  | .invalidNumber => "invalid number"
  | .numberOutOfRange => "number out of range"
  | .invalidUtf8 => "invalid unicode code point"
  | .controlCharacter => "control character (\\u0000-\\u001F) found while parsing a string"
  | .keyNotString => "key must be a string"
  | .loneSurrogate => "lone leading surrogate in hex escape"
  | .unfinishedSurrogates => "unexpected end of hex escape"
  | .trailingComma => "trailing comma"
  | .trailingCharacters => "trailing characters"
  | .tooDeep => "recursion limit exceeded"
  | .invalidType found expected => "invalid type: " ++ found.message ++ ", expected " ++ expected
  | .invalidValue found expected => "invalid value: " ++ found.message ++ ", expected " ++ expected
  | .invalidLength length expected => s!"invalid length {length}, expected {expected}"
  | .unknownVariant name known => "unknown variant " ++ ticked name ++ ", " ++ choice known
  | .missingField name => "missing field " ++ ticked name
  | .duplicateField name => "duplicate field " ++ ticked name

/-- The words for a reason at a place. -/
def Reason.placed (reason : Reason) (place : Position) : String :=
  s!"{reason.message} at line {place.line} column {place.column}"

/-- The words for a fault. -/
def Fault.message (fault : Fault Position) : String :=
  fault.reason.placed fault.place

end SchemaMatch.Json

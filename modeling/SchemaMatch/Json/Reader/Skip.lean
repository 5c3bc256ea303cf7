import SchemaMatch.Json.Reader.Number
import SchemaMatch.Json.Reader.Text

/-!
# Passing over values

A value that nobody asked for is passed over. Only its form is checked: numbers may have any
magnitude, escapes may name any surrogate, and arrays and objects may stand in each other to any
depth, since the brackets that are open are kept as a list rather than on a stack of readers.
-/

namespace SchemaMatch.Json

/-- An array or an object whose end has not been reached. -/
inductive Enclosure
  | array
  | object
  deriving DecidableEq

/-- The byte that ends an array or an object. -/
def Enclosure.closing : Enclosure → UInt8
  | .array => Byte.closeBracket
  | .object => Byte.closeBrace

/-- Why a text may not end in an array or an object. -/
def Enclosure.atEnd : Enclosure → Reason
  | .array => .endInList
  | .object => .endInObject

/-- Why another byte may not follow an item or a member. -/
def Enclosure.expectedComma : Enclosure → Reason
  | .array => .expectedCommaOrBracket
  | .object => .expectedCommaOrBrace

/-- What is due next when passing over a value. -/
inductive Due
  /-- A value. -/
  | value
  /-- The first item or member of the innermost enclosure, or its end. -/
  | first
  /-- A comma after an item or a member of the innermost enclosure, or its end. -/
  | comma
  /-- The name of a further member of the innermost enclosure, an object. -/
  | name

/-- The state of passing over a value: what is due, and the enclosures that are open, the innermost
    one first. -/
structure Pass where
  due : Due
  enclosures : List Enclosure

/-- Why a text may not end in this state. -/
def Pass.atEnd : Pass → Reason
  | ⟨.value, _⟩ | ⟨_, []⟩ => .endInValue
  | ⟨_, innermost :: _⟩ => innermost.atEnd

namespace Reader

/-- What is due after a value: nothing when no enclosure is open. -/
def afterValue (enclosures : List Enclosure) : Pass ⊕ Unit :=
  if enclosures.isEmpty then .inr () else .inl ⟨.comma, enclosures⟩

/-- Passes over a value that begins with the byte just taken: all of it, or its opening bracket. -/
def skipValueFrom (enclosures : List Enclosure) (byte : UInt8) : Reader (Pass ⊕ Unit) := do
  if byte = Byte.openBracket then return .inl ⟨.first, .array :: enclosures⟩
  else if byte = Byte.openBrace then return .inl ⟨.first, .object :: enclosures⟩
  else
    if byte = Byte.quote then skipString
    else if byte = Byte.minus then skipNegative
    else if Byte.isDigit byte then skipNumberFrom byte
    else if byte = Byte.ofChar 'n' then word ['u', 'l', 'l']
    else if byte = Byte.ofChar 't' then word ['r', 'u', 'e']
    else if byte = Byte.ofChar 'f' then word ['a', 'l', 's', 'e']
    else fail .expectedValue .behind
    return afterValue enclosures

/-- Passes over a name that begins with the byte just taken, and its colon. -/
def skipNameFrom (enclosures : List Enclosure) (byte : UInt8) : Reader (Pass ⊕ Unit) := do
  if byte = Byte.quote then
    skipString
    colon
    return .inl ⟨.value, enclosures⟩
  else fail .keyNotString .behind

/-- Goes on with the byte just taken in an enclosure whose end does not come. -/
def skipEntryFrom (innermost : Enclosure) (outer : List Enclosure) (byte : UInt8) :
    Reader (Pass ⊕ Unit) :=
  match innermost with
  | .array => skipValueFrom (innermost :: outer) byte
  | .object => skipNameFrom (innermost :: outer) byte

/-- One round of passing over a value, which begins with a byte. -/
def skipRound (pass : Pass) (byte : UInt8) : Reader (Pass ⊕ Unit) :=
  if Byte.isBlank byte then return .inl pass
  else
    match pass with
    | ⟨.value, enclosures⟩ => skipValueFrom enclosures byte
    | ⟨.name, enclosures⟩ => skipNameFrom enclosures byte
    | ⟨_, []⟩ => return .inr ()
    | ⟨.first, innermost :: outer⟩ =>
      if byte = innermost.closing then return afterValue outer
      else skipEntryFrom innermost outer byte
    | ⟨.comma, innermost :: outer⟩ =>
      if byte = innermost.closing then return afterValue outer
      else if byte = Byte.comma then
        match innermost with
        | .array => return .inl ⟨.value, innermost :: outer⟩
        | .object => return .inl ⟨.name, innermost :: outer⟩
      else fail innermost.expectedComma .behind

/-- Passes over a value. -/
def skipValue : Reader Unit :=
  loop skipRound Pass.atEnd ⟨.value, []⟩

end Reader

end SchemaMatch.Json

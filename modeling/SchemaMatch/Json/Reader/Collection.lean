import SchemaMatch.Json.Reader.Number
import SchemaMatch.Json.Reader.Text

/-!
# Reading arrays and objects

The items of an array are read by one reader each. The members of an object are read by a handler
that is given what was gathered so far and the name of the member; it takes the colon and the value
itself, so that it may refuse a name before its value is looked at.
-/

namespace SchemaMatch.Json

/-- Reads a value that may open a number of further levels. -/
abbrev Decoder (α : Type) := (depth : Nat) → Reader α

namespace Reader

variable {α σ : Type}

/-! ## Arrays -/

/-- Goes to the next item of an array, and tells whether there is one. -/
def nextItem (first : Bool) : Reader Bool := do
  blanks
  match ← peek with
  | none => fail .endInList .ahead
  | some byte =>
    if byte = Byte.closeBracket then return false
    else if first then return true
    else if byte = Byte.comma then
      let _ ← take
      blanks
      match ← peek with
      | none => fail .endInValue .ahead
      | some byte =>
        if byte = Byte.closeBracket then fail .trailingComma .ahead else return true
    else fail .expectedCommaOrBracket .ahead

/-- One round of reading items, which begins with a byte after an item. The state has the items so
    far, the last one first. -/
def itemRound (item : Reader α) (items : List α) (byte : UInt8) : Reader (List α ⊕ List α) := do
  if Byte.isBlank byte then return .inl items
  else if byte = Byte.closeBracket then return .inr items.reverse
  else if byte = Byte.comma then
    blanks
    match ← peek with
    | none => fail .endInValue .ahead
    | some byte =>
      if byte = Byte.closeBracket then fail .trailingComma .ahead
      else return .inl ((← item) :: items)
  else fail .expectedCommaOrBracket .behind

/-- Takes the items of an array after its opening bracket, up to and with its closing bracket. -/
def items (item : Reader α) : Reader (List α) := do
  if ← nextItem true then
    let head ← item
    loop (itemRound item) (fun _ => .endInList) [head]
  else
    let _ ← take
    return []

/-! ## Objects -/

/-- Takes the name of a member, of which the first byte was looked at. -/
def nameAt (byte : UInt8) : Reader String := do
  if byte = Byte.quote then
    let _ ← take
    stringRest
  else fail .keyNotString .ahead

/-- One round of reading members, which begins with a byte after a member. -/
def memberRound (member : σ → String → Reader σ) (state : σ) (byte : UInt8) : Reader (σ ⊕ σ) := do
  if Byte.isBlank byte then return .inl state
  else if byte = Byte.closeBrace then return .inr state
  else if byte = Byte.comma then
    blanks
    match ← peek with
    | none => fail .endInValue .ahead
    | some byte =>
      if byte = Byte.closeBrace then fail .trailingComma .ahead
      else return .inl (← member state (← nameAt byte))
  else fail .expectedCommaOrBrace .behind

/-- Takes the members of an object after its opening brace, up to and with its closing brace. -/
def members (member : σ → String → Reader σ) (state : σ) : Reader σ := do
  blanks
  match ← peek with
  | none => fail .endInObject .ahead
  | some byte =>
    if byte = Byte.closeBrace then
      let _ ← take
      return state
    else
      let state ← member state (← nameAt byte)
      loop (memberRound member) (fun _ => .endInObject) state

end Reader

/-! ## Values of a given kind -/

namespace Decoder

open Reader

variable {α : Type}

/-- Stops because the value ahead is not of the expected kind. A number, a string or a word is read
    first, and may be faulty itself. -/
def mismatch (expected : String) : Reader α := do
  let byte ← peekValue
  if byte = Byte.ofChar 'n' then
    let _ ← take
    word ['u', 'l', 'l']
    fail (.invalidType .null expected) .behind
  else if byte = Byte.ofChar 't' then
    let _ ← take
    word ['r', 'u', 'e']
    fail (.invalidType (.bool true) expected) .behind
  else if byte = Byte.ofChar 'f' then
    let _ ← take
    word ['a', 'l', 's', 'e']
    fail (.invalidType (.bool false) expected) .behind
  else if byte = Byte.minus ∨ Byte.isDigit byte then
    let n ← number
    fail (.invalidType n.found expected) .behind
  else if byte = Byte.quote then
    let _ ← take
    let text ← stringRest
    fail (.invalidType (.string text) expected) .behind
  else if byte = Byte.openBracket then fail (.invalidType .sequence expected) .behind
  else if byte = Byte.openBrace then fail (.invalidType .map expected) .behind
  else fail .expectedValue .ahead

/-- Reads a number of an expected kind. -/
def numberOf (expected : String) : Reader Number := do
  let byte ← peekValue
  if byte = Byte.minus ∨ Byte.isDigit byte then number else mismatch expected

/-- Reads a double-precision number. -/
def double : Decoder Float := fun _ => do
  return (← numberOf "f64").toDouble

/-- Reads a single-precision number. -/
def single : Decoder Float32 := fun _ => do
  return (← numberOf "f32").toSingle

/-- Reads a natural number of at most 64 bits, of an expected kind. -/
def natural (expected : String) : Decoder UInt64 := fun _ => do
  match ← numberOf expected with
  | .whole n =>
    if 0 ≤ n then return n.toNat.toUInt64 else fail (.invalidValue (.integer n) expected) .behind
  | other => fail (.invalidType other.found expected) .behind

/-- Reads a string, of an expected kind. -/
def stringOf (expected : String) : Reader String := do
  if (← peekValue) = Byte.quote then
    let _ ← take
    stringRest
  else mismatch expected

/-- Reads a string. -/
def string : Decoder String := fun _ => stringOf "a string"

/-- Reads `null` or a value. -/
def optional (decoder : Decoder α) : Decoder (Option α) := fun depth => do
  blanks
  if (← peek) = some (Byte.ofChar 'n') then
    let _ ← take
    word ['u', 'l', 'l']
    return none
  else return some (← decoder depth)

/-- Reads an array of values. -/
def list (decoder : Decoder α) : Decoder (List α) := fun depth => do
  if (← peekValue) = Byte.openBracket then nested (fun depth => items (decoder depth)) depth
  else mismatch "a sequence"

end Decoder

/-- The number of levels that a text may open. -/
def depthLimit : Nat := 127

/-- Reads a value after which nothing but white space is left. -/
def Decoder.whole {α : Type} (decoder : Decoder α) : Reader α := do
  let value ← decoder depthLimit
  Reader.finish
  return value

/-- Reads all of a source as one value. -/
def Decoder.decodeFrom {S P α : Type} [Source S P] (decoder : Decoder α) (s : S) :
    Except (Fault P) α :=
  (decoder.whole.on s).map (·.value)

/-- Reads all of a text as one value. -/
def Decoder.decode {α : Type} (decoder : Decoder α) (bytes : List UInt8) :
    Except (Fault Position) α :=
  (decoder.decodeFrom bytes).mapError fun fault =>
    ⟨fault.reason, .behind (bytes.take (bytes.length - fault.place))⟩

/-- Reads all of a stream as one value. -/
def Decoder.decodeStream {α : Type} (decoder : Decoder α) (bytes : List UInt8) :
    Except (Fault Position) α :=
  decoder.decodeFrom (Stream.ofBytes bytes)

end SchemaMatch.Json

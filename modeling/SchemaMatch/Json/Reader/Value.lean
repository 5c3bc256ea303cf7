import SchemaMatch.Json.Reader.Collection

/-!
# Reading any value

Any JSON text is read into a `Value`, with the members of its objects in the order of the text.
-/

namespace SchemaMatch.Json

open Reader

/-- Reads a value, given what to do at the bracket of an array and at the brace of an object. -/
def Reader.valueWith (array object : Reader Value) : Reader Value := do
  let byte ← peekValue
  if byte = Byte.ofChar 'n' then
    let _ ← take
    word ['u', 'l', 'l']
    return .null
  else if byte = Byte.ofChar 't' then
    let _ ← take
    word ['r', 'u', 'e']
    return .bool true
  else if byte = Byte.ofChar 'f' then
    let _ ← take
    word ['a', 'l', 's', 'e']
    return .bool false
  else if byte = Byte.minus ∨ Byte.isDigit byte then return .number (← number)
  else if byte = Byte.quote then
    let _ ← take
    return .string (← stringRest)
  else if byte = Byte.openBracket then array
  else if byte = Byte.openBrace then object
  else fail .expectedValue .ahead

/-- Puts a member, after its name, in front of those taken before it. -/
def Reader.valueMember (value : Reader Value) (taken : List (String × Value)) (name : String) :
    Reader (List (String × Value)) := do
  colon
  return (name, ← value) :: taken

/-- Reads any value. -/
def Decoder.value : Decoder Value
  | 0 => valueWith (fail .tooDeep .ahead) (fail .tooDeep .ahead)
  | depth + 1 =>
    valueWith
      (do
        let _ ← take
        return .array (← items (Decoder.value depth)))
      (do
        let _ ← take
        return .object (← members (valueMember (Decoder.value depth)) []).reverse)

end SchemaMatch.Json

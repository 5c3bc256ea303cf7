import SchemaMatch.Json.Reader.Basic
import SchemaMatch.Json.Value
import SchemaMatch.Precision

/-!
# Reading numbers

A number without fraction and exponent that fits 64 bits is whole. Any other is held in double
precision, and need not be the nearest one: its digits are gathered into a significand below `2^64`,
and this, once rounded, is multiplied with or divided by a power of ten. Digits that the significand
cannot take up raise the exponent before the point and are dropped after it. `-0` is the double
with that sign.

A number that is passed over (`skipNumberFrom`) has its form checked only.
-/

namespace SchemaMatch.Json

/-! ## Digits -/

/-- The value of a decimal digit. -/
def digitValue (b : UInt8) : Nat :=
  b.toNat - '0'.toNat

/-- Counts a decimal digit. -/
def countDigit (count : Nat) (byte : UInt8) : Option Nat :=
  if Byte.isDigit byte then some (count + 1) else none

/-- Appends a decimal digit to a number and counts it, unless the number then exceeds a limit. -/
def absorbDigit (limit : Nat) : Nat × Nat → UInt8 → Option (Nat × Nat)
  | (n, count), byte =>
    if Byte.isDigit byte ∧ n * 10 + digitValue byte ≤ limit then
      some (n * 10 + digitValue byte, count + 1)
    else none

/-! ## Scaling -/

/-- The greatest significand: the greatest number of 64 bits. -/
def significandLimit : Nat := 0xFFFFFFFFFFFFFFFF

/-- The greatest exponent that is written out: the greatest signed number of 32 bits. -/
def exponentLimit : Nat := 0x7FFFFFFF

/-- The double nearest to a power of ten. -/
def powerOfTen (exponent : Nat) : Float :=
  Float.ofScientific 1 false exponent

/-- Multiplies a number with a power of ten, or divides it by one, in steps of at most `10^308`.
    There is no result when the product is too large. -/
def scale? (x : Float) (exponent : Int) : Option Float :=
  if exponent.natAbs ≤ 308 then
    if 0 ≤ exponent then
      let product := x * powerOfTen exponent.natAbs
      if product.isInf then none else some product
    else some (x / powerOfTen exponent.natAbs)
  else if x == 0 then some x
  else if 0 ≤ exponent then none
  else scale? (x / powerOfTen 308) (exponent + 308)
termination_by (-exponent).toNat
decreasing_by omega

/-- The number with the opposite sign, if so asked. -/
def signed (negative : Bool) (x : Float) : Float :=
  if negative then -x else x

/-- The double-precision number nearest to a number. -/
def Number.toDouble : Number → Float
  | .whole n => doubleOfInt n
  | .double x => x
  | .single x => widen x

/-- The single-precision number nearest to a number. -/
def Number.toSingle : Number → Float32
  | .whole n => singleOfInt n
  | .double x => narrow x
  | .single x => x

/-- A number as something found. -/
def Number.found : Number → Found
  | .whole n => .integer n
  | .double x => .float x
  | .single x => .float (widen x)

namespace Reader

/-! ## Numbers -/

/-- Takes decimal digits and counts them. -/
def digits : Reader Nat := scan countDigit 0

/-- Appends decimal digits to a number, up to the first one that would take it beyond a limit, and
    counts them. -/
def digitsWithin (limit n : Nat) : Reader (Nat × Nat) := scan (absorbDigit limit) (n, 0)

/-- Whether the next byte has a property. -/
def nextIs (property : UInt8 → Bool) : Reader Bool := do
  return (← peek).any property

/-- The number with a significand and an exponent. -/
def scaled (negative : Bool) (significand : Nat) (exponent : Int) : Reader Number :=
  match scale? significand.toUInt64.toFloat exponent with
  | some x => return .double (signed negative x)
  | none => fail .numberOutOfRange .behind

/-- Takes the sign of an exponent, and tells whether it is negative. -/
def exponentSign : Reader Bool := do
  if ← nextIs (· = Byte.plus) then
    let _ ← take
    return false
  else if ← nextIs (· = Byte.minus) then
    let _ ← take
    return true
  else return false

/-- Takes an exponent from its mark on, added to an exponent that is already known. An exponent
    beyond its limit makes the number zero or too large. -/
def exponentPart (negative : Bool) (significand : Nat) (known : Int) : Reader Number := do
  let _ ← take
  let downward ← exponentSign
  match ← take with
  | none => fail .endInValue .behind
  | some byte =>
    if Byte.isDigit byte then
      let (n, _) ← digitsWithin exponentLimit (digitValue byte)
      if ← nextIs Byte.isDigit then
        let _ ← take
        if significand ≠ 0 ∧ ¬downward then fail .numberOutOfRange .behind
        else
          let _ ← digits
          return .double (signed negative 0)
      else scaled negative significand (if downward then known - n else known + n)
    else fail .invalidNumber .behind

/-- Takes an exponent, if there is one. -/
def exponentPart? (negative : Bool) (significand : Nat) (known : Int) : Reader Number := do
  if ← nextIs Byte.isExponentMark then exponentPart negative significand known
  else scaled negative significand known

/-- Takes a fraction from its point on, after a significand with an exponent. -/
def fractionPart (negative : Bool) (significand : Nat) (known : Int) : Reader Number := do
  let _ ← take
  let (n, count) ← digitsWithin significandLimit significand
  if ← nextIs Byte.isDigit then
    let _ ← digits
    exponentPart? negative n (known - count)
  else if count = 0 then
    match ← peek with
    | none => fail .endInValue .ahead
    | some _ => fail .invalidNumber .ahead
  else exponentPart? negative n (known - count)

/-- A number without fraction and exponent: whole if it fits 64 bits with its sign. -/
def wholeNumber (negative : Bool) (n : Nat) : Number :=
  if ¬negative then .whole n
  else if n = 0 ∨ 0x8000000000000000 < n then .double (-n.toUInt64.toFloat)
  else .whole (-(n : Int))

/-- Takes what follows the whole part of a number. -/
def afterWhole (negative : Bool) (n : Nat) : Reader Number := do
  if ← nextIs (· = Byte.point) then fractionPart negative n 0
  else if ← nextIs Byte.isExponentMark then exponentPart negative n 0
  else return wholeNumber negative n

/-- Takes a number after its sign. -/
def unsignedNumber (negative : Bool) : Reader Number := do
  match ← take with
  | none => fail .endInValue .behind
  | some byte =>
    if byte = Byte.zero then
      if ← nextIs Byte.isDigit then fail .invalidNumber .ahead
      else afterWhole negative 0
    else if Byte.isDigit byte then
      let (n, _) ← digitsWithin significandLimit (digitValue byte)
      if ← nextIs Byte.isDigit then
        let dropped ← digits
        if ← nextIs (· = Byte.point) then fractionPart negative n dropped
        else exponentPart? negative n dropped
      else afterWhole negative n
    else fail .invalidNumber .behind

/-- Takes a number from its sign or its first digit on. -/
def number : Reader Number := do
  if ← nextIs (· = Byte.minus) then
    let _ ← take
    unsignedNumber true
  else unsignedNumber false

/-! ## Numbers passed over -/

/-- Passes over an exponent from its mark on. -/
def skipExponent : Reader Unit := do
  let _ ← take
  let _ ← exponentSign
  match ← take with
  | none => fail .invalidNumber .behind
  | some byte =>
    if Byte.isDigit byte then
      let _ ← digits
    else fail .invalidNumber .behind

/-- Passes over a number of which the first byte after the sign was taken. -/
def skipNumberFrom (byte : UInt8) : Reader Unit := do
  if byte = Byte.zero then
    if ← nextIs Byte.isDigit then fail .invalidNumber .ahead
  else if Byte.isDigit byte then
    let _ ← digits
  else fail .invalidNumber .behind
  if ← nextIs (· = Byte.point) then
    let _ ← take
    if (← digits) = 0 then fail .invalidNumber .ahead
  if ← nextIs Byte.isExponentMark then skipExponent

/-- Passes over a number after its minus sign. -/
def skipNegative : Reader Unit := do
  match ← take with
  | none => fail .invalidNumber .behind
  | some byte => skipNumberFrom byte

end Reader

end SchemaMatch.Json

/-!
# Reading a decimal

The value of a decimal text, correctly rounded: the double-precision number nearest to the exact
decimal value, a half going to the even neighbour. A text is an optional sign and then either one of
the words `inf`, `infinity` and `nan`, in any case, or digits with an optional point among, before
or after them and an optional exponent.
-/

namespace SchemaMatch.Decimal

/-- The number that a list of decimal digits spells. -/
def natOfDigits (digits : List Char) : Nat :=
  digits.foldl (fun n c => n * 10 + (c.toNat - '0'.toNat)) 0

/-- The double-precision number nearest to `digits · 10^exponent`. The two guards answer for
    exponents that no finite number other than zero can have. -/
def nearest (digits : Nat) (exponent : Int) : Float :=
  let size : Int := (Nat.repr digits).length
  if digits = 0 ∨ size + exponent < -400 then 0.0
  else if 400 < size + exponent then Float.ofBits 0x7FF0000000000000
  else if exponent < 0 then Float.ofScientific digits true (-exponent).toNat
  else Float.ofScientific digits false exponent.toNat

/-- The value of an exponent: `e` or `E`, an optional sign and at least one digit, or nothing. -/
def readExponent? : List Char → Option Int
  | [] => some 0
  | mark :: text =>
    let (negative, digits) :=
      match text with
      | '-' :: later => (true, later)
      | '+' :: later => (false, later)
      | later => (false, later)
    if (mark = 'e' ∨ mark = 'E') ∧ digits ≠ [] ∧ digits.all Char.isDigit then
      let size : Int := natOfDigits digits
      some (if negative then -size else size)
    else none

/-- The magnitude of a decimal text without its sign. -/
def readMagnitude? (text : List Char) : Option Float :=
  let word := text.map Char.toLower
  if word = "inf".toList ∨ word = "infinity".toList then some (Float.ofBits 0x7FF0000000000000)
  else if word = "nan".toList then some (Float.ofBits 0x7FF8000000000000)
  else
    let (whole, rest) := text.span Char.isDigit
    let (fraction, rest) :=
      match rest with
      | '.' :: later => later.span Char.isDigit
      | later => ([], later)
    if whole = [] ∧ fraction = [] then none
    else (readExponent? rest).map fun exponent =>
      nearest (natOfDigits (whole ++ fraction)) (exponent - fraction.length)

/-- The value of a decimal text, if it is one. -/
def readDouble? (text : List Char) : Option Float :=
  match text with
  | '-' :: later => (readMagnitude? later).map (- ·)
  | '+' :: later => readMagnitude? later
  | later => readMagnitude? later

end SchemaMatch.Decimal

import SchemaMatch.Decimal.Shortest

/-!
# Decimal layout

How a number is spelled once its shortest digits are known. With the value `d.ddd · 10^e`, a
`Layout` says for which `e` the digits are spelled out around a point; beyond them the number has
an exponent with its sign and without padding. A number that is spelled out always has a fraction,
so that `1` reads `1.0`, while `1e+16` has none.
-/

namespace SchemaMatch.Decimal

/-- The powers of ten of the leading digit for which a number is spelled out. -/
structure Layout where
  /-- The least such power. -/
  least : Int
  /-- The greatest such power. -/
  greatest : Int

/-- Double-precision numbers are spelled out from `0.00001` to below `10^16`. -/
def doubles : Layout := ⟨-5, 15⟩

/-- Single-precision numbers are spelled out from `0.000001` to below `10^13`. -/
def singles : Layout := ⟨-6, 12⟩

/-- The characters of `n` zeros. -/
def zeros (n : Nat) : List Char :=
  List.replicate n '0'

/-- The digits of a positive number, with the power of ten of the leading one. -/
def Digits.scientific (d : Digits) : List Char × Int :=
  let digits := (Nat.repr d.digits).toList
  (digits, d.exponent + digits.length - 1)

/-- A positive number spelled out around a point. -/
def positional (digits : List Char) (leading : Int) : List Char :=
  if leading < 0 then
    '0' :: '.' :: (zeros (-leading - 1).toNat ++ digits)
  else
    let whole := leading.toNat + 1
    if digits.length ≤ whole then digits ++ zeros (whole - digits.length) ++ ['.', '0']
    else digits.take whole ++ '.' :: digits.drop whole

/-- A positive number with an exponent. -/
def exponential (digits : List Char) (leading : Int) : List Char :=
  let mantissa :=
    match digits with
    | first :: second :: later => first :: '.' :: second :: later
    | short => short
  mantissa ++ 'e' :: (if leading < 0 then '-' else '+') :: (Nat.repr leading.natAbs).toList

/-- A positive number in its shortest digits. -/
def Layout.magnitude (n : Layout) (d : Digits) : List Char :=
  let (digits, leading) := d.scientific
  if n.least ≤ leading ∧ leading ≤ n.greatest then positional digits leading
  else exponential digits leading

/-- A number from its sign and its magnitude, which is absent for zero. -/
def Layout.signed (n : Layout) (negative : Bool) (magnitude : Option Digits) : String :=
  let text := (magnitude.map n.magnitude).getD ['0', '.', '0']
  String.ofList (if negative then '-' :: text else text)

/-- The text of a finite double-precision number. -/
def ofDouble (x : Float) : String :=
  doubles.signed (x.toBits >>> 63 != 0)
    (if x == 0 then none else some (Binary.ofDouble x).shortest)

/-- The text of a finite single-precision number. -/
def ofSingle (x : Float32) : String :=
  singles.signed (x.toBits >>> 31 != 0)
    (if x == 0 then none else some (Binary.ofSingle x).shortest)

end SchemaMatch.Decimal

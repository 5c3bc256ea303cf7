/-!
# The shortest decimal that reads back

A finite positive binary number `m · 2^q` is the only one of its format in an interval of reals:
the reals that round to it. The interval reaches half a unit up and half a unit down, or a quarter
down where the next lower number is twice as near; its ends belong to it when `m` is even.

A grid of `n` digits has the multiples of `10^k` whose leading digit stands where that of the
number stands. `shortest` takes the coarsest grid with a point in the interval, and of that grid
the point nearest to the number, the even one of two at the same distance. If any point of a grid
lies in the interval, so does one of the two that enclose the number, so that only these two are
looked at.
-/

namespace SchemaMatch.Decimal

/-- A finite positive binary number `mantissa · 2^exponent`. -/
structure Binary where
  /-- The mantissa, not zero. -/
  mantissa : Nat
  /-- The power of two that the mantissa is multiplied with. -/
  exponent : Int
  /-- Whether the next lower number is half as far away as the next higher one. -/
  nearerBelow : Bool

/-- A positive decimal number `digits · 10^exponent`. -/
structure Digits where
  /-- The digits, read as one number. -/
  digits : Nat
  /-- The power of ten of the last digit. -/
  exponent : Int
  deriving Repr, DecidableEq

/-- The value of a binary number as a fraction of two natural numbers. -/
def Binary.fraction (b : Binary) : Nat × Nat :=
  (b.mantissa <<< b.exponent.toNat, 1 <<< (-b.exponent).toNat)

/-- The least `j ≤ fuel` with `den ≤ num * 10^j`, or `fuel`. -/
def leadingShift (num den : Nat) : (fuel : Nat) → Nat
  | 0 => 0
  | fuel + 1 => if den ≤ num then 0 else leadingShift (num * 10) den fuel + 1

/-- The power of ten at which the leading digit of a binary number stands. A number below one is
    above `10^-400`, which bounds the search. -/
def Binary.leading (b : Binary) : Int :=
  let (num, den) := b.fraction
  if den ≤ num then ((Nat.repr (num / den)).length : Int) - 1
  else -(leadingShift num den 400 : Int)

/-- The point of the grid of multiples of `10^k` that stands for the number: the nearer one of the
    two that enclose it, if it reads back as the number. -/
def Binary.onGrid? (b : Binary) (k : Int) : Option Digits :=
  let unit := Nat.pow 10 k.toNat <<< (2 - b.exponent).toNat
  let scale := Nat.pow 10 (-k).toNat <<< (b.exponent - 2).toNat
  let value := 4 * b.mantissa * scale
  let low := (4 * b.mantissa - (if b.nearerBelow then 1 else 2)) * scale
  let high := (4 * b.mantissa + 2) * scale
  let closed := b.mantissa % 2 = 0
  let below := value / unit
  let above := below + 1
  let belowReads := low < below * unit ∨ (closed ∧ low = below * unit)
  let aboveReads := above * unit < high ∨ (closed ∧ above * unit = high)
  let belowNearer := 2 * (value % unit) < unit ∨ (2 * (value % unit) = unit ∧ below % 2 = 0)
  if belowReads ∧ (belowNearer ∨ ¬aboveReads) then some ⟨below, k⟩
  else if aboveReads then some ⟨above, k⟩
  else none

/-- The point of the coarsest grid that reads back, among the grids of `count` digits and more. -/
def Binary.search (b : Binary) (leading : Int) (count : Nat) : (fuel : Nat) → Digits
  | 0 => ⟨b.fraction.1 / b.fraction.2, 0⟩
  | fuel + 1 =>
    (b.onGrid? (leading + 1 - count)).getD (b.search leading (count + 1) fuel)

/-- Drops the zeros at the end of the digits. -/
def Digits.trimmed (digits : Nat) (exponent : Int) : (fuel : Nat) → Digits
  | 0 => ⟨digits, exponent⟩
  | fuel + 1 =>
    if digits % 10 = 0 ∧ digits ≠ 0 then trimmed (digits / 10) (exponent + 1) fuel
    else ⟨digits, exponent⟩

/-- The shortest decimal that reads back as the number, without zeros at its end. Every number of
    double precision has one of at most seventeen digits. -/
def Binary.shortest (b : Binary) : Digits :=
  let found := b.search b.leading 1 17
  Digits.trimmed found.digits found.exponent 18

/-- The magnitude of a finite number other than zero, from the fields of its bits: a fraction field
    of `fractionBits` bits below the exponent field, and the exponent of the smallest unit. -/
def Binary.ofFields (fractionBits : Nat) (least : Int) (exponent fraction : Nat) : Binary :=
  if exponent = 0 then ⟨fraction, least, false⟩
  else ⟨(1 <<< fractionBits) + fraction, least + exponent - 1, fraction = 0 ∧ 1 < exponent⟩

/-- The magnitude of a finite double-precision number other than zero. -/
def Binary.ofDouble (x : Float) : Binary :=
  let bits := x.toBits.toNat
  .ofFields 52 (-1074) ((bits >>> 52) % 2048) (bits % (1 <<< 52))

/-- The magnitude of a finite single-precision number other than zero. -/
def Binary.ofSingle (x : Float32) : Binary :=
  let bits := x.toBits.toNat
  .ofFields 23 (-149) ((bits >>> 23) % 256) (bits % (1 <<< 23))

end SchemaMatch.Decimal

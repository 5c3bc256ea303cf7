/-!
# Single and double precision

Embeddings hold single-precision numbers, while every sum, norm and score is computed in double
precision. Going up (`widen`) is exact. Going down (`narrow`) takes the nearest single-precision
number, a half going to the even neighbour; a value beyond the largest finite one becomes an
infinity. Whole numbers go down directly (`singleOfInt`), with one rounding.
-/

namespace SchemaMatch

/-- The double-precision number with the same value, bit by bit: a subnormal number is its fraction
    scaled by `2^-149`, any other keeps its fraction and has its exponent moved to the new bias. -/
def widen (x : Float32) : Float :=
  let bits := x.toBits.toUInt64
  let negative := bits >>> 31 != 0
  let exponent := (bits >>> 23) &&& 0xFF
  let fraction := bits &&& 0x7FFFFF
  let magnitude :=
    if exponent == 0 then fraction.toFloat * Float.ofBits ((1023 - 149 : UInt64) <<< 52)
    else if exponent == 0xFF then Float.ofBits (((0x7FF : UInt64) <<< 52) ||| (fraction <<< 29))
    else Float.ofBits (((exponent + (1023 - 127)) <<< 52) ||| (fraction <<< 29))
  if negative then -magnitude else magnitude

/-- The nearest single-precision number, a half going to the even neighbour. -/
def narrow (x : Float) : Float32 :=
  .ofModel <| .pack <|
    match x.toModel.unpack with
    | .finite sign mantissa exponent _ => .round .binary32 sign mantissa exponent
    | other => other

/-- The nearest single-precision number to a whole number of at most 64 bits. -/
def singleOfInt (n : Int) : Float32 :=
  let magnitude := n.natAbs.toUInt64.toFloat32
  if n < 0 then -magnitude else magnitude

/-- The nearest double-precision number to a whole number of at most 64 bits. -/
def doubleOfInt (n : Int) : Float :=
  let magnitude := n.natAbs.toUInt64.toFloat
  if n < 0 then -magnitude else magnitude

end SchemaMatch

/-!
# A seeded stream of random words

The stream cipher ChaCha with twelve rounds serves as a source of random 64-bit words. Its state is
four rows of four words: the constants, two rows of key, and a row with the number of the block. Six
double rounds are applied to it, each one to the columns and then to the diagonals, and the start is
added to the outcome; two neighbouring words of the sum, the lower one first, are one draw.

The key is spread from a 64-bit seed by a linear congruential generator whose output is permuted by
a shift and a rotation that depend on its state.
-/

namespace SchemaMatch.Random

/-- A row of four words. -/
structure Row where
  a : UInt32
  b : UInt32
  c : UInt32
  d : UInt32

namespace Row

/-- The sums of the words of two rows. -/
@[inline] def add (x y : Row) : Row :=
  ⟨x.a + y.a, x.b + y.b, x.c + y.c, x.d + y.d⟩

/-- A word rotated to the left. -/
@[inline] def rotate (count : UInt32) (x : UInt32) : UInt32 :=
  (x <<< count) ||| (x >>> (32 - count))

/-- The words of two rows combined by exclusive or and rotated to the left. -/
@[inline] def mix (count : UInt32) (x y : Row) : Row :=
  ⟨rotate count (x.a ^^^ y.a), rotate count (x.b ^^^ y.b), rotate count (x.c ^^^ y.c),
    rotate count (x.d ^^^ y.d)⟩

/-- The row moved by one place, its first word going to the end. -/
@[inline] def turn (x : Row) : Row :=
  ⟨x.b, x.c, x.d, x.a⟩

/-- The draws of a row. -/
def draws (x : Row) : List UInt64 :=
  [x.a.toUInt64 ||| (x.b.toUInt64 <<< 32), x.c.toUInt64 ||| (x.d.toUInt64 <<< 32)]

end Row

/-- The state of a block, or its outcome. -/
structure Block where
  first : Row
  second : Row
  third : Row
  fourth : Row

namespace Block

/-- The four quarter rounds of the columns. -/
@[inline] def columns (s : Block) : Block :=
  let first := s.first.add s.second
  let fourth := s.fourth.mix 16 first
  let third := s.third.add fourth
  let second := s.second.mix 12 third
  let first := first.add second
  let fourth := fourth.mix 8 first
  let third := third.add fourth
  let second := second.mix 7 third
  ⟨first, second, third, fourth⟩

/-- The columns moved into the diagonals. -/
@[inline] def slanted (s : Block) : Block :=
  ⟨s.first, s.second.turn, s.third.turn.turn, s.fourth.turn.turn.turn⟩

/-- The diagonals moved back into the columns. -/
@[inline] def upright (s : Block) : Block :=
  ⟨s.first, s.second.turn.turn.turn, s.third.turn.turn, s.fourth.turn⟩

/-- A round of the columns and a round of the diagonals. -/
def doubleRound (s : Block) : Block :=
  s.columns.slanted.columns.upright

/-- Some double rounds. -/
def doubleRounds : Nat → Block → Block
  | 0, s => s
  | count + 1, s => doubleRounds count s.doubleRound

/-- The outcome of the twelve rounds. -/
def outcome (s : Block) : Block :=
  let t := doubleRounds 6 s
  ⟨t.first.add s.first, t.second.add s.second, t.third.add s.third, t.fourth.add s.fourth⟩

/-- The eight draws of an outcome. -/
def draws (s : Block) : List UInt64 :=
  s.first.draws ++ s.second.draws ++ s.third.draws ++ s.fourth.draws

end Block

/-- A key of eight words. -/
structure Key where
  low : Row
  high : Row

/-- The draws of the block of a number. -/
def Key.blockDraws (key : Key) (number : UInt64) : List UInt64 :=
  let start : Block :=
    ⟨⟨0x61707865, 0x3320646E, 0x79622D32, 0x6B206574⟩, key.low, key.high,
      ⟨number.toUInt32, (number >>> 32).toUInt32, 0, 0⟩⟩
  start.outcome.draws

/-- The next state of the generator that spreads a seed. -/
def spread (state : UInt64) : UInt64 :=
  state * 6364136223846793005 + 11634580027462260723

/-- The word that a state of the generator gives. -/
def spreadWord (state : UInt64) : UInt32 :=
  let word := (((state >>> 18) ^^^ state) >>> 27).toUInt32
  let count := (state >>> 59).toUInt32
  (word >>> count) ||| (word <<< ((32 - count) % 32))

/-- The row that the four states after a state give, and the last of these. -/
def spreadRow (state : UInt64) : Row × UInt64 :=
  let s1 := spread state
  let s2 := spread s1
  let s3 := spread s2
  let s4 := spread s3
  (⟨spreadWord s1, spreadWord s2, spreadWord s3, spreadWord s4⟩, s4)

/-- The key that a seed spreads into. -/
def Key.ofSeed (seed : UInt64) : Key :=
  let (low, state) := spreadRow seed
  let (high, _) := spreadRow state
  ⟨low, high⟩

/-- A place in the stream of draws of a key. -/
structure Stream where
  /-- The key. -/
  key : Key
  /-- The number of the next block. -/
  number : UInt64
  /-- The draws that are left of the block before it. -/
  pending : List UInt64

namespace Stream

/-- The start of the stream of a seed. -/
def ofSeed (seed : UInt64) : Stream :=
  ⟨Key.ofSeed seed, 0, []⟩

/-- The next draw, and the place after it. -/
def next (s : Stream) : UInt64 × Stream :=
  match s.pending with
  | draw :: later => (draw, { s with pending := later })
  | [] =>
    let draws := s.key.blockDraws s.number
    (draws.headD 0, ⟨s.key, s.number + 1, draws.tail⟩)

/-- The next draws, and the place after them. -/
def take : Nat → Stream → List UInt64 × Stream
  | 0, s => ([], s)
  | count + 1, s =>
    let (draw, s) := s.next
    let (later, s) := take count s
    (draw :: later, s)

end Stream

end SchemaMatch.Random

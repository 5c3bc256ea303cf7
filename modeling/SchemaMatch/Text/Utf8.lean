/-!
# Reading bytes as text

Bytes of which nobody promised that they are UTF-8 are cut into pieces: every well-formed character
is one, and so is every longest run of bytes that begins a character but does not complete it, as
well as every other byte. The bytes can still be shown as text, with a replacement character for
each piece that is none; and the first such piece tells where the bytes cease to be UTF-8.
-/

namespace SchemaMatch.Text

/-- What stands for a piece that is not a character. -/
def replacement : Char := '\uFFFD'

/-- A piece of some bytes: its character, if it is one, and its length. -/
structure Piece where
  char? : Option Char
  length : Nat

/-- Whether the byte may follow the first byte of a character. -/
def isContinuation (b : UInt8) : Bool :=
  0x80 ≤ b ∧ b ≤ 0xBF

/-- Whether the two bytes may begin a character of three bytes: neither may it be too short for
    them, nor a surrogate. -/
def beginsThree (a b : UInt8) : Bool :=
  if a = 0xE0 then 0xA0 ≤ b ∧ b ≤ 0xBF
  else if a = 0xED then 0x80 ≤ b ∧ b ≤ 0x9F
  else 0xE1 ≤ a ∧ a ≤ 0xEF ∧ isContinuation b

/-- Whether the two bytes may begin a character of four bytes: neither may it be too short for them,
    nor beyond the last code point. -/
def beginsFour (a b : UInt8) : Bool :=
  if a = 0xF0 then 0x90 ≤ b ∧ b ≤ 0xBF
  else if a = 0xF4 then 0x80 ≤ b ∧ b ≤ 0x8F
  else 0xF1 ≤ a ∧ a ≤ 0xF3 ∧ isContinuation b

/-- The character whose first byte carries some bits and whose other bytes carry six bits each. -/
def Piece.char (first : Nat) (later : List UInt8) : Piece :=
  ⟨some (Char.ofNat (later.foldl (fun code b => code * 64 + b.toNat % 64) first)),
    later.length + 1⟩

/-- Bytes that are not a character. -/
def Piece.broken (length : Nat) : Piece := ⟨none, length⟩

/-- The pieces of some bytes. -/
def pieces : List UInt8 → List Piece
  | [] => []
  | a :: rest =>
    if a < 0x80 then .char a.toNat [] :: pieces rest
    else
      match rest with
      | [] => [.broken 1]
      | b :: rest₂ =>
        if 0xC2 ≤ a ∧ a ≤ 0xDF ∧ isContinuation b then .char (a.toNat % 32) [b] :: pieces rest₂
        else if beginsThree a b then
          match rest₂ with
          | [] => [.broken 2]
          | c :: rest₃ =>
            if isContinuation c then .char (a.toNat % 16) [b, c] :: pieces rest₃
            else .broken 2 :: pieces (c :: rest₃)
        else if beginsFour a b then
          match rest₂ with
          | [] => [.broken 2]
          | c :: rest₃ =>
            if isContinuation c then
              match rest₃ with
              | [] => [.broken 3]
              | d :: rest₄ =>
                if isContinuation d then .char (a.toNat % 8) [b, c, d] :: pieces rest₄
                else .broken 3 :: pieces (d :: rest₄)
            else .broken 2 :: pieces (c :: rest₃)
        else .broken 1 :: pieces (b :: rest₂)

/-- The text of some bytes, with a replacement for what is no character. -/
def lossy (bytes : List UInt8) : String :=
  String.ofList ((pieces bytes).map fun piece => piece.char?.getD replacement)

/-- The number of bytes before the first piece that is no character. -/
def validLength (bytes : List UInt8) : Nat :=
  ((pieces bytes).takeWhile fun piece => piece.char?.isSome).foldl
    (fun total piece => total + piece.length) 0

/-- The bytes of a text. -/
def bytes (text : String) : List UInt8 :=
  text.toUTF8.data.toList

/-- The text of some bytes, if they are UTF-8. -/
def ofBytes? (bytes : List UInt8) : Option String :=
  String.fromUTF8? bytes.toByteArray

end SchemaMatch.Text

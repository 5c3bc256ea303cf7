import SchemaMatch.Json.Reader.Basic

/-!
# Reading strings

A string is taken byte by byte up to its closing quote, with its escapes replaced by the bytes of
the characters they stand for; only then are the bytes read as UTF-8. A character beyond the basic
plane may be escaped as a surrogate pair, and no surrogate may stand alone.

A string that is passed over (`skipString`) has its escapes checked for their form only.
-/

namespace SchemaMatch.Json

/-- The UTF-8 bytes of a code point that is no surrogate. -/
def utf8Bytes (code : Nat) : List UInt8 :=
  String.utf8EncodeChar (Char.ofNat code)

/-- Whether the number is the first half of a surrogate pair. -/
def isLeadingSurrogate (n : Nat) : Bool :=
  0xD800 ≤ n ∧ n ≤ 0xDBFF

/-- Whether the number is the second half of a surrogate pair. -/
def isTrailingSurrogate (n : Nat) : Bool :=
  0xDC00 ≤ n ∧ n ≤ 0xDFFF

/-- The bytes that the simple escapes stand for, by the letter after the backslash. -/
def simpleEscape? (b : UInt8) : Option UInt8 :=
  if b = Byte.quote ∨ b = Byte.backslash ∨ b = Byte.ofChar '/' then some b
  else if b = Byte.ofChar 'b' then some 0x08
  else if b = Byte.ofChar 'f' then some 0x0C
  else if b = Byte.ofChar 'n' then some 0x0A
  else if b = Byte.ofChar 'r' then some 0x0D
  else if b = Byte.ofChar 't' then some 0x09
  else none

namespace Reader

/-- Takes the given byte of the escape that must follow the first half of a surrogate pair. -/
def surrogateMark (mark : UInt8) : Reader Unit := do
  match ← take with
  | none => fail .endInString .behind
  | some byte => if byte ≠ mark then fail .unfinishedSurrogates .behind

/-- Takes a numbered escape after its letter, with the second one of a surrogate pair. -/
def numberedEscape : Reader (List UInt8) := do
  let n ← hexEscape
  if isTrailingSurrogate n then
    fail .loneSurrogate .behind
  else if isLeadingSurrogate n then
    surrogateMark Byte.backslash
    surrogateMark (Byte.ofChar 'u')
    let m ← hexEscape
    if isTrailingSurrogate m then
      return utf8Bytes (0x10000 + (n - 0xD800) * 0x400 + (m - 0xDC00))
    else fail .loneSurrogate .behind
  else return utf8Bytes n

/-- Takes an escape after its backslash. -/
def escape : Reader (List UInt8) := do
  match ← take with
  | none => fail .endInString .behind
  | some byte =>
    match simpleEscape? byte with
    | some plain => return [plain]
    | none => if byte = Byte.ofChar 'u' then numberedEscape else fail .invalidEscape .behind

/-- Takes an escape after its backslash, looking only at its form. -/
def skipEscape : Reader Unit := do
  match ← take with
  | none => fail .endInString .behind
  | some byte =>
    if (simpleEscape? byte).isSome then return ()
    else if byte = Byte.ofChar 'u' then
      let _ ← hexEscape
    else fail .invalidEscape .behind

/-- Takes the bytes of a string after its opening quote, up to and with its closing quote. The state
    has the bytes so far, the last one first. -/
def stringBytes : Reader (List UInt8) :=
  loop (fun taken byte =>
    if byte = Byte.quote then return .inr taken.reverse
    else if byte = Byte.backslash then do
      let plain ← escape
      return .inl (plain.reverse ++ taken)
    else if byte < 0x20 then fail .controlCharacter .behind
    else return .inl (byte :: taken)) (fun _ => .endInString) []

/-- Takes a string after its opening quote, up to and with its closing quote. -/
def stringRest : Reader String := do
  asText (← stringBytes)

/-- Passes over the bytes of a string that stand for themselves, up to the closing quote or an
    escape. -/
def skipPlain : Reader Unit := do
  passWhile Byte.isPlain
  if (← peek).any (· < 0x20) then fail .controlCharacter .behind

/-- Passes over a string after its opening quote. Each round begins with the closing quote or with
    the backslash of an escape. -/
def skipString : Reader Unit := do
  skipPlain
  loop (fun _ byte => do
    if byte = Byte.quote then return .inr ()
    else
      skipEscape
      skipPlain
      return .inl ()) (fun _ => .endInString) ()

end Reader

end SchemaMatch.Json

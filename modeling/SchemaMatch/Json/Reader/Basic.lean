import SchemaMatch.Json.Source
import SchemaMatch.Text.Utf8

/-!
# Readers

A `Reader` is a program that reads a value or reports a fault: it performs one operation after the
other, and goes on with what each of them gives. What it does to the bytes is told by the source
that it runs on (`Reader.on`), be it a text or a stream; the reader itself is the same for both.

A reader that goes round in a loop (`Reader.loop`) takes a byte in each round, and ends for that
reason.

The module has what all readers of JSON share: looking at and taking a byte, white space, and
closing an array or an object.
-/

namespace SchemaMatch.Json

/-- What a reader does to its source in one step. -/
inductive Operation : Type → Type 1
  /-- Looks at the next byte. -/
  | peek : Operation (Option UInt8)
  /-- Takes the next byte. -/
  | take : Operation (Option UInt8)
  /-- Takes the four digits of a numbered escape. -/
  | hexEscape : Operation Nat
  /-- Reads the bytes of a string as text, all of which were just taken. -/
  | asText (taken : List UInt8) : Operation String
  /-- Takes bytes as long as each of them gives a new state. -/
  | scan {σ : Type} (step : σ → UInt8 → Option σ) (state : σ) : Operation σ

/-- A program that reads a value. -/
inductive Reader : Type → Type 1
  /-- Gives a value. -/
  | give {α : Type} (value : α) : Reader α
  /-- Stops with a fault. -/
  | fail {α : Type} (reason : Reason) (site : Site) : Reader α
  /-- Performs an operation and goes on with what it gives. -/
  | perform {α β : Type} (operation : Operation β) (next : β → Reader α) : Reader α
  /-- Goes round in a loop and goes on with what it gives. -/
  | repeated {α β σ : Type} (round : σ → UInt8 → Reader (σ ⊕ β)) (atEnd : σ → Reason) (state : σ)
      (next : β → Reader α) : Reader α

section On

variable {S P : Type} [Source S P]

/-- Performs an operation on a source. If the bytes of a string are no text, the fault is placed as
    far in front of what is left as the bytes reach on from the first one that does not begin a
    character, where an escape counts as the bytes that it stands for. -/
def Operation.on {α : Type} : Operation α → (s : S) → Except (Fault P) (Read α s)
  | .peek, s => .ok ⟨(Source.peek s).1, (Source.peek s).2, Source.left_peek_le s⟩
  | .take, s => .ok ⟨(Source.take s).1, (Source.take s).2, Source.left_take_le s⟩
  | .hexEscape, s =>
    match (Source.hexEscape s).1 with
    | .ok n => .ok ⟨n, (Source.hexEscape s).2, Source.left_hexEscape s⟩
    | .error reason => .error ⟨reason, Source.place .behind (Source.hexEscape s).2⟩
  | .asText taken, s =>
    match Text.ofBytes? taken with
    | some text => .ok (.given text s)
    | none => .error ⟨.invalidUtf8, Source.placeBack (taken.length - Text.validLength taken) s⟩
  | .scan step state, s => .ok (Source.scan step state s)

/-- Runs a reader on a source. -/
def Reader.on : {α : Type} → Reader α → (s : S) → Except (Fault P) (Read α s)
  | _, .give value, s => .ok (.given value s)
  | _, .fail reason site, s => .error ⟨reason, Source.place site s⟩
  | _, .perform operation next, s => Read.andThen (operation.on s) fun value => (next value).on
  | _, .repeated round atEnd state next, s =>
    Read.andThen (Source.rounds (fun state byte => (round state byte).on) atEnd state s)
      fun value => (next value).on

end On

namespace Reader

variable {α β σ : Type}

/-- Goes on with what the first reader gives. -/
protected def bind : Reader α → (α → Reader β) → Reader β
  | .give value, next => next value
  | .fail reason site, _ => .fail reason site
  | .perform operation later, next => .perform operation fun value => (later value).bind next
  | .repeated round atEnd state later, next =>
    .repeated round atEnd state fun value => (later value).bind next

instance : Monad Reader where
  pure := .give
  bind := Reader.bind

/-- How readers are put together makes no difference. -/
instance : LawfulMonad Reader :=
  LawfulMonad.mk' Reader
    (fun reader => by
      change Reader.bind reader .give = reader
      induction reader with
      | give | fail => rfl
      | perform operation next ih => exact congrArg _ (funext ih)
      | repeated round atEnd state next _ ih => exact congrArg _ (funext ih))
    (fun _ _ => rfl)
    (fun reader next last => by
      change Reader.bind (Reader.bind reader next) last =
        Reader.bind reader fun value => Reader.bind (next value) last
      induction reader with
      | give | fail => rfl
      | perform operation later ih => exact congrArg _ (funext fun value => ih value next)
      | repeated round atEnd state later _ ih =>
        exact congrArg _ (funext fun value => ih value next))

/-- The next byte, which is not taken. -/
def peek : Reader (Option UInt8) := .perform .peek .give

/-- Takes the next byte. -/
def take : Reader (Option UInt8) := .perform .take .give

/-- Takes the four digits of a numbered escape. -/
def hexEscape : Reader Nat := .perform .hexEscape .give

/-- Reads the bytes of a string as text, all of which were just taken. -/
def asText (taken : List UInt8) : Reader String := .perform (.asText taken) .give

/-- Takes bytes as long as each of them gives a new state. -/
def scan (step : σ → UInt8 → Option σ) (state : σ) : Reader σ := .perform (.scan step state) .give

/-- Passes over bytes as long as they have a property. -/
def passWhile (property : UInt8 → Bool) : Reader Unit :=
  scan (fun _ byte => if property byte then some () else none) ()

/-- Takes bytes round by round. Each round takes a byte and may take more after it; it gives a new
    state to go on with, or the result. Where there is no byte for a round, `atEnd` tells what to
    report. -/
def loop (round : σ → UInt8 → Reader (σ ⊕ α)) (atEnd : σ → Reason) (state : σ) : Reader α :=
  .repeated round atEnd state .give

end Reader

/-! ## White space and brackets -/

namespace Reader

variable {α : Type}

/-- Passes over white space. -/
def blanks : Reader Unit := passWhile Byte.isBlank

/-- Passes over white space and looks at the first byte of a value. -/
def peekValue : Reader UInt8 := do
  blanks
  match ← peek with
  | none => fail .endInValue .ahead
  | some byte => return byte

/-- Takes the rest of a word of which the first letter was taken. -/
def word : List Char → Reader Unit
  | [] => return ()
  | c :: later => do
    match ← take with
    | none => fail .endInValue .behind
    | some byte => if byte = Byte.ofChar c then word later else fail .unknownWord .behind

/-- Takes the bracket of an array or an object, which opens one more of the `depth` levels that
    may yet be opened, and then its content. -/
def nested (content : (depth : Nat) → Reader α) : (depth : Nat) → Reader α
  | 0 => fail .tooDeep .ahead
  | depth + 1 => do
    let _ ← take
    content depth

/-- Takes the end of an array after its last item. -/
def closeArray : Reader Unit := do
  blanks
  match ← peek with
  | none => fail .endInList .ahead
  | some byte =>
    if byte = Byte.closeBracket then
      let _ ← take
    else if byte = Byte.comma then
      let _ ← take
      blanks
      if (← peek) = some Byte.closeBracket then fail .trailingComma .ahead
      else fail .trailingCharacters .ahead
    else fail .trailingCharacters .ahead

/-- Stops with a fault about an object as a whole, which is placed behind the object if its end
    comes next, and at the next byte if not. -/
def failObject (reason : Reason) : Reader α := do
  blanks
  if (← peek) = some Byte.closeBrace then
    let _ ← take
    fail reason .behind
  else fail reason .behind

/-- Takes the colon between a name and its value. -/
def colon : Reader Unit := do
  blanks
  match ← peek with
  | none => fail .endInObject .ahead
  | some byte =>
    if byte = Byte.colon then
      let _ ← take
    else fail .expectedColon .ahead

/-- Takes the end of the text, before which only white space may stand. -/
def finish : Reader Unit := do
  blanks
  if (← peek).isSome then fail .trailingCharacters .ahead

end Reader

end SchemaMatch.Json

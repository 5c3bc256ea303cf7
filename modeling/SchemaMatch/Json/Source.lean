import SchemaMatch.Json.Byte
import SchemaMatch.Json.Fault

/-!
# What bytes are read from

A `Source` gives its bytes one after the other, and lets the next one be looked at before it is
taken. There are two:

* a text held in memory, the list of the bytes that are left of it, which is looked at wherever it
  suits, and the place of a fault is counted back from its end;
* a `Stream`, from which a byte can only be pulled. One that was looked at but not taken is kept in
  a slot. The place is that behind the last byte that was pulled, so that a byte that was only
  looked at counts as passed, be the fault about it or not.
-/

namespace SchemaMatch.Json

/-- Whether a fault is about the next byte. -/
inductive Site
  /-- It is about what was taken. -/
  | behind
  /-- It is about the next byte, if there is one. -/
  | ahead

/-- Something that bytes are read from, which places its faults by a `P`. -/
class Source (S : Type) (P : outParam Type) where
  /-- The number of bytes left. -/
  left : S → Nat
  /-- Looks at the next byte. -/
  peek : S → Option UInt8 × S
  /-- Takes the next byte. -/
  take : S → Option UInt8 × S
  /-- Takes the four digits of a numbered escape. -/
  hexEscape : S → Except Reason Nat × S
  /-- The place of a fault. -/
  place : Site → S → P
  /-- The place that is some bytes in front of what is left. -/
  placeBack : Nat → S → P
  left_peek (s : S) : left (peek s).2 = left s
  left_take (s : S) : left (take s).2 = left s - 1
  left_hexEscape (s : S) : left (hexEscape s).2 ≤ left s
  isSome_peek (s : S) : (peek s).1.isSome ↔ 0 < left s
  isSome_take (s : S) : (take s).1.isSome ↔ 0 < left s

/-- A value read from a source, and the source after it. -/
structure Read {S P : Type} [Source S P] (α : Type) (s : S) where
  /-- The value. -/
  value : α
  /-- The source after it. -/
  rest : S
  /-- No more bytes are left than there were. -/
  left_le : Source.left rest ≤ Source.left s

namespace Read

variable {S P α β : Type} [Source S P] {s t : S}

/-- A value that is given without anything being read. -/
def given (value : α) (s : S) : Read α s := ⟨value, s, Nat.le_refl _⟩

/-- A value that was read after others. -/
def after (h : Source.left t ≤ Source.left s) (read : Read α t) : Read α s :=
  ⟨read.value, read.rest, Nat.le_trans read.left_le h⟩

/-- Goes on with what the first reading leaves. -/
def andThen (first : Except (Fault P) (Read α s))
    (next : α → (t : S) → Except (Fault P) (Read β t)) : Except (Fault P) (Read β s) := do
  let read ← first
  (next read.value read.rest).map (after read.left_le)

end Read

namespace Source

variable {S P α σ : Type} [Source S P]

theorem left_peek_le (s : S) : left (peek s).2 ≤ left s := Nat.le_of_eq (left_peek s)

theorem left_take_le (s : S) : left (take s).2 ≤ left s :=
  Nat.le_trans (Nat.le_of_eq (left_take s)) (Nat.sub_le _ _)

theorem left_take_peek_lt {s : S} (h : (peek s).1.isSome) : left (take (peek s).2).2 < left s := by
  have hpos : 0 < left s := (isSome_peek s).1 h
  rw [left_take, left_peek]
  exact Nat.sub_lt hpos Nat.one_pos

theorem left_take_lt {s : S} (h : (take s).1.isSome) : left (take s).2 < left s := by
  have hpos : 0 < left s := (isSome_take s).1 h
  rw [left_take]
  exact Nat.sub_lt hpos Nat.one_pos

/-- Takes bytes as long as each of them gives a new state. -/
def scan (step : σ → UInt8 → Option σ) (state : σ) (s : S) : Read σ s :=
  match h : (peek s).1.bind (step state) with
  | none => ⟨state, (peek s).2, left_peek_le s⟩
  | some state =>
    have hlt := left_take_peek_lt (Option.isSome_of_isSome_bind (by rw [h]; rfl))
    (scan step state (take (peek s).2).2).after (Nat.le_of_lt hlt)
termination_by left s

/-- Takes bytes round by round. Each round takes a byte and may take more after it; it gives a new
    state to go on with, or the result. Where there is no byte for a round, `atEnd` tells what to
    report. -/
def rounds (round : σ → UInt8 → (s : S) → Except (Fault P) (Read (σ ⊕ α) s)) (atEnd : σ → Reason)
    (state : σ) (s : S) : Except (Fault P) (Read α s) :=
  match h : (take s).1 with
  | none => .error ⟨atEnd state, place .behind (take s).2⟩
  | some byte =>
    have hlt : left (take s).2 < left s := left_take_lt (by rw [h]; rfl)
    match round state byte (take s).2 with
    | .error fault => .error fault
    | .ok ⟨.inl state, t, hle⟩ =>
      have hlt : left t < left s := Nat.lt_of_le_of_lt hle hlt
      (rounds round atEnd state t).map (·.after (Nat.le_of_lt hlt))
    | .ok ⟨.inr value, t, hle⟩ => .ok ⟨value, t, Nat.le_trans hle (Nat.le_of_lt hlt)⟩
termination_by left s

end Source

/-! ## Texts -/

/-- A text that is held in memory. The place of a fault is the number of bytes that are not passed,
    and the digits of a numbered escape are looked up at once. -/
instance : Source (List UInt8) Nat where
  left bytes := bytes.length
  peek bytes := (bytes.head?, bytes)
  take bytes := (bytes.head?, bytes.tail)
  hexEscape
    | a :: b :: c :: d :: rest =>
      (match hexNumber? [a, b, c, d] with
        | some n => .ok n
        | none => .error .invalidEscape, rest)
    | _ => (.error .endInString, [])
  place
    | .behind, bytes => bytes.length
    | .ahead, bytes => bytes.length - 1
  placeBack count bytes := bytes.length + count
  left_peek _ := rfl
  left_take _ := List.length_tail
  left_hexEscape bytes := by
    split
    · exact Nat.le_add_right _ 4
    · exact Nat.zero_le _
  isSome_peek bytes := by cases bytes <;> simp
  isSome_take bytes := by cases bytes <;> simp

/-! ## Streams -/

/-- A stream of bytes with the byte that was looked at, if it was not taken. -/
structure Stream where
  /-- The bytes that were not pulled. -/
  unpulled : List UInt8
  /-- The byte that was pulled to be looked at. -/
  slot : Option UInt8
  /-- The place behind all bytes that were pulled. -/
  place : Position

namespace Stream

/-- The stream of some bytes, before any of them is pulled. -/
def ofBytes (bytes : List UInt8) : Stream := ⟨bytes, none, .start⟩

/-- The number of bytes left. -/
def left (s : Stream) : Nat := s.slot.toList.length + s.unpulled.length

/-- Pulls a byte, in front of which no other waits in the slot. -/
def pull (s : Stream) : Option UInt8 × Stream :=
  match s.unpulled with
  | [] => (none, s)
  | byte :: later => (some byte, ⟨later, none, s.place.next byte⟩)

/-- Looks at the next byte, which is pulled into the slot unless one is there. -/
def peek (s : Stream) : Option UInt8 × Stream :=
  match s.slot with
  | some byte => (some byte, s)
  | none => (s.pull.1, { s.pull.2 with slot := s.pull.1 })

/-- Takes the next byte, out of the slot if there is one. -/
def take (s : Stream) : Option UInt8 × Stream :=
  match s.slot with
  | some byte => (some byte, { s with slot := none })
  | none => s.pull

/-- Takes a number of bytes one by one, unless the stream ends before. -/
def takeAll : (count : Nat) → Stream → Option (List UInt8) × Stream
  | 0, s => (some [], s)
  | count + 1, s =>
    match s.take with
    | (none, s) => (none, s)
    | (some byte, s) => ((takeAll count s).1.map (byte :: ·), (takeAll count s).2)

/-- Takes the four digits of a numbered escape one by one. -/
def hexEscape (s : Stream) : Except Reason Nat × Stream :=
  match takeAll 4 s with
  | (none, s) => (.error .endInString, s)
  | (some digits, s) =>
    (match hexNumber? digits with
      | some n => .ok n
      | none => .error .invalidEscape, s)

theorem left_pull {s : Stream} (h : s.slot = none) :
    s.pull.2.left = s.left - 1 ∧ (s.pull.1.isSome ↔ 0 < s.left) ∧ s.pull.2.slot = none := by
  rw [pull]
  split <;> simp_all [left]

theorem left_peek (s : Stream) : s.peek.2.left = s.left ∧ (s.peek.1.isSome ↔ 0 < s.left) := by
  rw [peek]
  split
  · next byte h => simp [left, h, Nat.add_comm 1]
  · next h =>
    rw [pull]
    split <;> simp_all [left, Nat.add_comm]

theorem left_take (s : Stream) : s.take.2.left = s.left - 1 ∧ (s.take.1.isSome ↔ 0 < s.left) := by
  rw [take]
  split
  · next byte h => simp [left, h, Nat.add_comm 1]
  · next h => exact ⟨(left_pull h).1, (left_pull h).2.1⟩

theorem left_takeAll_le (count : Nat) (s : Stream) : (takeAll count s).2.left ≤ s.left := by
  induction count generalizing s with
  | zero => exact Nat.le_refl _
  | succ count ih =>
    have htake : s.take.2.left ≤ s.left := (left_take s).1 ▸ Nat.sub_le _ _
    rw [takeAll]
    split
    · next heq => simpa only [heq] using htake
    · next heq => exact Nat.le_trans (ih _) (by simpa only [heq] using htake)

theorem left_hexEscape_le (s : Stream) : s.hexEscape.2.left ≤ s.left := by
  have h := left_takeAll_le 4 s
  rw [hexEscape]
  split
  · next heq => simpa only [heq] using h
  · next heq => simpa only [heq] using h

end Stream

instance : Source Stream Position where
  left := Stream.left
  peek := Stream.peek
  take := Stream.take
  hexEscape := Stream.hexEscape
  place
    | .behind, s => s.place
    | .ahead, s => s.peek.2.place
  placeBack count s := s.place.back count
  left_peek s := (Stream.left_peek s).1
  left_take s := (Stream.left_take s).1
  left_hexEscape := Stream.left_hexEscape_le
  isSome_peek s := (Stream.left_peek s).2
  isSome_take s := (Stream.left_take s).2

end SchemaMatch.Json

import SchemaMatch.Proofs.Json.Outcome

/-!
# Texts and streams are read alike

A reader runs on a text, of which any byte may be looked at, and on a stream, out of which bytes can
only be pulled, one after the other. While it does, the stream *stands* where the text is
(`Stands`): what is left of the text is the byte in the slot of the stream, if there is one, and all
that was not pulled.

Each operation gives the same on both, and leaves the stream standing where the text is; so do the
digits of a numbered escape, which are looked up at once in the text and pulled one by one from the
stream (`Stands.hexEscape`). A reader is put together from operations and loops, and so the same
holds of every reader: `Reader.sameOutcome`. If it has a fault, the reason is the same on both. The
place of the stream is that behind the last byte that was pulled, and this is the place in the text
or one byte further (`Near`).
-/

namespace SchemaMatch.Json

/-- A further byte is passed. -/
theorem Position.behind_append_singleton (passed : List UInt8) (byte : UInt8) :
    behind (passed ++ [byte]) = (behind passed).next byte :=
  List.foldl_append

/-- Whether a stream stands where some bytes are left of a text. The first of them may wait in its
    slot, and is then passed already as far as its place is concerned. -/
inductive Stands (text : List UInt8) : (left : List UInt8) → Stream → Prop
  | between {passed left : List UInt8} : passed ++ left = text →
    Stands text left ⟨left, none, .behind passed⟩
  | waiting {passed left : List UInt8} {byte : UInt8} : passed ++ byte :: left = text →
    Stands text (byte :: left) ⟨left, some byte, .behind (passed ++ [byte])⟩

/-- Whether a place in a stream is that of a text where a number of its bytes are not passed, or one
    byte further. -/
def Near (text : List UInt8) (unpassed : Nat) (place : Position) : Prop :=
  ∃ further, text.length - unpassed ≤ further ∧ further ≤ text.length - unpassed + 1 ∧
    further ≤ text.length ∧ place = .behind (text.take further)

/-- Whether a reader comes to the same on a text and on a stream: to the same value, the stream then
    standing where the text is, or to a fault for the same reason. The bytes of a string that are
    not UTF-8 are placed by each of them in its own way. -/
inductive SameOutcome {α : Type} (text : List UInt8) :
    Except (Fault Nat) (α × List UInt8) → Except (Fault Position) (α × Stream) → Prop
  | given {value : α} {left : List UInt8} {s : Stream} :
    Stands text left s → SameOutcome text (.ok (value, left)) (.ok (value, s))
  | fault {reason : Reason} {unpassed : Nat} {place : Position} :
    (reason ≠ .invalidUtf8 → Near text unpassed place) →
    SameOutcome text (.error ⟨reason, unpassed⟩) (.error ⟨reason, place⟩)

theorem SameOutcome.bind {α β : Type} {text : List UInt8}
    {first : Except (Fault Nat) (α × List UInt8)} {first' : Except (Fault Position) (α × Stream)}
    {next : α × List UInt8 → Except (Fault Nat) (β × List UInt8)}
    {next' : α × Stream → Except (Fault Position) (β × Stream)} (h : SameOutcome text first first')
    (hnext : ∀ {value left s}, first = .ok (value, left) → Stands text left s →
      SameOutcome text (next (value, left)) (next' (value, s))) :
    SameOutcome text (first.bind next) (first'.bind next') := by
  cases h with
  | given hs => exact hnext rfl hs
  | fault hnear => exact .fault hnear

/-! ## Streams -/

theorem stands_ofBytes (text : List UInt8) : Stands text text (.ofBytes text) :=
  .between (List.nil_append text)

namespace Stands

variable {text left : List UInt8} {s : Stream}

/-- The next byte is looked at, and then waits in the slot. -/
theorem exists_peek (h : Stands text left s) :
    ∃ t, s.peek = (left.head?, t) ∧ t.slot = left.head? ∧ Stands text left t := by
  cases h with
  | @waiting passed left byte htext => exact ⟨_, rfl, rfl, .waiting htext⟩
  | @between passed left htext =>
    rcases left with _ | ⟨byte, later⟩
    · exact ⟨_, rfl, rfl, .between htext⟩
    · refine ⟨⟨later, some byte, (Position.behind passed).next byte⟩, rfl, rfl, ?_⟩
      exact Position.behind_append_singleton passed byte ▸ .waiting htext

/-- The next byte is taken, out of the slot if it waits there. -/
theorem exists_take (h : Stands text left s) :
    ∃ t, s.take = (left.head?, t) ∧ Stands text left.tail t := by
  cases h with
  | @waiting passed left byte htext =>
    exact ⟨_, rfl, .between (by rwa [List.append_assoc])⟩
  | @between passed left htext =>
    rcases left with _ | ⟨byte, later⟩
    · exact ⟨_, rfl, .between htext⟩
    · refine ⟨⟨later, none, (Position.behind passed).next byte⟩, rfl, ?_⟩
      exact Position.behind_append_singleton passed byte ▸ .between (by rwa [List.append_assoc])

/-- Bytes that are taken one by one are those in front, if there are as many. -/
theorem exists_takeAll (h : Stands text left s) (count : Nat) :
    ∃ t, Stream.takeAll count s =
        (if count ≤ left.length then some (left.take count) else none, t) ∧
      Stands text (left.drop count) t := by
  induction count generalizing left s with
  | zero => exact ⟨s, by simp [Stream.takeAll], h⟩
  | succ count ih =>
    obtain ⟨t, htake, ht⟩ := h.exists_take
    obtain ⟨u, hall, hu⟩ := ih ht
    rw [Stream.takeAll, htake]
    cases left with
    | nil => exact ⟨t, by simp, ht⟩
    | cons byte later =>
      refine ⟨u, ?_, hu⟩
      dsimp only [List.head?_cons]
      rw [hall]
      by_cases hcount : count ≤ later.length <;> simp [hcount]

/-- Of a numbered escape the stream takes the digits that the text has. -/
theorem exists_hexEscape (h : Stands text left s) :
    ∃ t, s.hexEscape = ((Source.hexEscape left).1, t) ∧
      Stands text (Source.hexEscape left).2 t := by
  obtain ⟨t, hall, ht⟩ := h.exists_takeAll 4
  rw [Stream.hexEscape, hall]
  rcases left with _ | ⟨a, _ | ⟨b, _ | ⟨c, _ | ⟨d, later⟩⟩⟩⟩
  all_goals exact ⟨t, rfl, ht⟩

/-- A fault about what was taken. -/
theorem near_behind (h : Stands text left s) : Near text left.length s.place := by
  cases h with
  | @between passed left htext =>
    refine ⟨passed.length, ?_⟩
    simp [← htext]
  | @waiting passed left byte htext =>
    refine ⟨passed.length + 1, ?_⟩
    simp [← htext, List.take_length_add_append]

/-- A fault about the next byte, which the stream pulls to place it. -/
theorem near_ahead (h : Stands text left s) :
    Near text (Source.place .ahead left) (Source.place .ahead s) := by
  obtain ⟨t, hpeek, hslot, ht⟩ := h.exists_peek
  change Near text (left.length - 1) s.peek.2.place
  rw [hpeek]
  cases ht with
  | @between passed left htext =>
    obtain rfl : left = [] := List.head?_eq_none_iff.1 hslot.symm
    exact (Stands.between htext).near_behind
  | @waiting passed left byte htext =>
    refine ⟨passed.length + 1, ?_⟩
    simp only [← htext, List.length_append, List.length_cons, List.take_length_add_append]
    exact ⟨by omega, by omega, by omega, rfl⟩

theorem near_place (h : Stands text left s) (site : Site) :
    Near text (Source.place site left) (Source.place site s) := by
  cases site with
  | behind => exact h.near_behind
  | ahead => exact h.near_ahead

end Stands

/-! ## Readers -/

variable {text left : List UInt8} {s : Stream} {α β σ : Type}

namespace Reader

theorem sameOutcome_fail (h : Stands text left s) (reason : Reason) (site : Site) :
    SameOutcome text ((fail reason site : Reader α).outcome left)
      ((fail reason site : Reader α).outcome s) :=
  .fault fun _ => h.near_place site

theorem sameOutcome_peek (h : Stands text left s) :
    SameOutcome text (peek.outcome left) (peek.outcome s) := by
  obtain ⟨t, hpeek, -, ht⟩ := h.exists_peek
  rw [outcome_peek, outcome_peek]
  change SameOutcome text _ (.ok s.peek)
  rw [hpeek]
  exact .given ht

theorem sameOutcome_take (h : Stands text left s) :
    SameOutcome text (take.outcome left) (take.outcome s) := by
  obtain ⟨t, htake, ht⟩ := h.exists_take
  rw [outcome_take, outcome_take]
  change SameOutcome text _ (.ok s.take)
  rw [htake]
  exact .given ht

theorem sameOutcome_hexEscape (h : Stands text left s) :
    SameOutcome text (hexEscape.outcome left) (hexEscape.outcome s) := by
  obtain ⟨t, hescape, ht⟩ := h.exists_hexEscape
  have hs : Source.hexEscape s = ((Source.hexEscape left).1, t) := hescape
  rw [outcome_hexEscape, outcome_hexEscape, hs]
  cases (Source.hexEscape left).1 with
  | ok n => exact .given ht
  | error reason => exact .fault fun _ => ht.near_behind

theorem sameOutcome_asText (h : Stands text left s) (taken : List UInt8) :
    SameOutcome text ((asText taken).outcome left) ((asText taken).outcome s) := by
  rw [outcome_asText, outcome_asText]
  cases SchemaMatch.Text.ofBytes? taken with
  | some string => exact .given h
  | none => exact .fault fun hreason => absurd rfl hreason

theorem sameOutcome_scan (h : Stands text left s) (step : σ → UInt8 → Option σ) (state : σ) :
    SameOutcome text ((scan step state).outcome left) ((scan step state).outcome s) := by
  -- The induction is on what is left of the text: each byte of it is looked at and then taken.
  induction left generalizing s state with
  | nil =>
    obtain ⟨t, hpeek, -, ht⟩ := h.exists_peek
    have hs : Source.peek s = (none, t) := hpeek
    rw [outcome_scan step state s, hs, outcome_scan]
    exact .given ht
  | cons byte later ih =>
    obtain ⟨t, hpeek, -, ht⟩ := h.exists_peek
    obtain ⟨u, htake, hu⟩ := ht.exists_take
    have hs : Source.peek s = (some byte, t) := hpeek
    have ht' : Source.take t = (some byte, u) := htake
    have hleft : Source.peek (byte :: later) = (some byte, byte :: later) := rfl
    rw [outcome_scan step state s, hs, ht', outcome_scan, hleft, Option.bind_some]
    cases step state byte with
    | none => exact .given ht
    | some state => exact ih hu state

theorem sameOutcome_loop {round : σ → UInt8 → Reader (σ ⊕ α)}
    (hround : ∀ state byte {left : List UInt8} {s : Stream}, Stands text left s →
      SameOutcome text ((round state byte).outcome left) ((round state byte).outcome s))
    (atEnd : σ → Reason) (h : Stands text left s) (state : σ) :
    SameOutcome text ((loop round atEnd state).outcome left)
      ((loop round atEnd state).outcome s) := by
  refine loop_induction round (motive := fun state left => ∀ s, Stands text left s →
    SameOutcome text ((loop round atEnd state).outcome left)
      ((loop round atEnd state).outcome s)) (fun state left ih s h => ?_) state left s h
  obtain ⟨t, htake, ht⟩ := h.exists_take
  have hs : Source.take s = (left.head?, t) := htake
  rw [outcome_loop, outcome_loop, hs]
  rcases left with _ | ⟨byte, later⟩
  · exact .fault fun _ => ht.near_behind
  · refine SameOutcome.bind (hround state byte ht) fun {value left s} hgiven hs => ?_
    cases value with
    | inl next => exact ih byte next left rfl hgiven s hs
    | inr value => exact .given hs

/-- Every reader comes to the same on a text and on a stream that stands where the text is. -/
theorem sameOutcome (reader : Reader α) (h : Stands text left s) :
    SameOutcome text (reader.outcome left) (reader.outcome s) := by
  -- A reader is a program, and the induction follows it: what it performs first, and then the rest.
  induction reader generalizing left s with
  | give value => exact .given h
  | fail reason site => exact sameOutcome_fail h reason site
  | perform operation next ih =>
    change SameOutcome text ((perform operation .give >>= next).outcome left)
      ((perform operation .give >>= next).outcome s)
    rw [outcome_bind, outcome_bind]
    refine SameOutcome.bind ?_ fun _ hs => ih _ hs
    cases operation with
    | peek => exact sameOutcome_peek h
    | take => exact sameOutcome_take h
    | hexEscape => exact sameOutcome_hexEscape h
    | asText taken => exact sameOutcome_asText h taken
    | scan step state => exact sameOutcome_scan h step state
  | repeated round atEnd state next ihRound ih =>
    change SameOutcome text ((loop round atEnd state >>= next).outcome left)
      ((loop round atEnd state >>= next).outcome s)
    rw [outcome_bind, outcome_bind]
    exact (sameOutcome_loop ihRound atEnd h state).bind fun _ hs => ih _ hs

end Reader

/-! ## Decoders -/

/-- A text and a stream of some bytes have the same value in them, or neither has one, for the same
    reason. -/
theorem Decoder.decodeStream_agrees (decoder : Decoder α) (bytes : List UInt8) :
    (∃ value, decoder.decode bytes = .ok value ∧ decoder.decodeStream bytes = .ok value) ∨
      ∃ reason passed place,
        decoder.decode bytes = .error ⟨reason, .behind (bytes.take passed)⟩ ∧
          decoder.decodeStream bytes = .error ⟨reason, place⟩ ∧
          (reason ≠ .invalidUtf8 → ∃ further, passed ≤ further ∧ further ≤ passed + 1 ∧
            further ≤ bytes.length ∧ place = .behind (bytes.take further)) := by
  have hsame := Reader.sameOutcome decoder.whole (stands_ofBytes bytes)
  rw [decode, decodeStream, Reader.decodeFrom_eq_outcome, Reader.decodeFrom_eq_outcome]
  generalize decoder.whole.outcome bytes = read at hsame ⊢
  generalize decoder.whole.outcome (Stream.ofBytes bytes) = streamed at hsame ⊢
  cases hsame with
  | @given value left s _ => exact .inl ⟨value, rfl, rfl⟩
  | @fault reason unpassed place hnear =>
    exact .inr ⟨reason, bytes.length - unpassed, place, rfl, rfl, hnear⟩

end SchemaMatch.Json

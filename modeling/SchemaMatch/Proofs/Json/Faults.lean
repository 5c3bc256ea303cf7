import SchemaMatch.Json.Record
import SchemaMatch.Proofs.Json.Encoding
import SchemaMatch.Proofs.Json.Numbers

/-!
# The faults that a text can have

Not every list of bytes is a text, and a reader of strings has to tell. On a text it has nothing to
tell: whatever else may be wrong, no string is found not to be UTF-8
(`Decoder.reason_ne_of_decode`).

A reader is *sound* on some bytes (`Reader.Sound`) if it leaves an end of them and its faults are
not about their encoding, and *safe* (`Reader.Safe`) if it is sound on whatever remains of a text.
What is put together from safe readers is safe, and so almost all readers are, one after the other
in the order of their definitions. A string, however, is sound only behind its quote
(`Reader.sound_stringRest`): a reader that goes on with a string is safe because it has looked at
the quote before (`Reader.Safe.peek_bind`).
-/

namespace SchemaMatch.Json

open Text

namespace Reader

variable {α β σ : Type} {bytes : List UInt8}

/-- Whether a reader leaves an end of some bytes or has a fault that is not about their encoding. -/
structure Sound (reader : Reader α) (bytes : List UInt8) : Prop where
  suffix : ∀ {value rest}, reader.Gives bytes value rest → rest <:+ bytes
  reason : ¬reader.Refuses bytes .invalidUtf8

/-- Whether a reader is sound on whatever remains of a text. -/
structure Safe (reader : Reader α) : Prop where
  sound : ∀ {bytes}, Remains bytes → reader.Sound bytes

/-! ## Readers put together -/

theorem Sound.bind {first : Reader α} {next : α → Reader β} (hfirst : first.Sound bytes)
    (hnext : ∀ {given mid}, first.Gives bytes given mid → (next given).Sound mid) :
    (first >>= next).Sound bytes where
  suffix h := by
    obtain ⟨given, mid, hgiven, hvalue⟩ := gives_bind_iff.1 h
    exact ((hnext hgiven).suffix hvalue).trans (hfirst.suffix hgiven)
  reason h := by
    rcases refuses_bind_iff.1 h with h | ⟨given, mid, hgiven, h⟩
    · exact hfirst.reason h
    · exact (hnext hgiven).reason h

theorem Safe.bind {first : Reader α} {next : α → Reader β} (hfirst : first.Safe)
    (hnext : ∀ given, (next given).Safe) : (first >>= next).Safe where
  sound hbytes := (hfirst.sound hbytes).bind fun hgiven =>
    (hnext _).sound (hbytes.of_suffix ((hfirst.sound hbytes).suffix hgiven))

theorem safe_pure (value : α) : (pure value : Reader α).Safe :=
  ⟨fun _ => ⟨fun h => (gives_pure_iff.1 h).2 ▸ List.suffix_rfl, fun ⟨_, h⟩ => nomatch h⟩⟩

theorem sound_fail {reason : Reason} (h : reason ≠ .invalidUtf8) (site : Site) :
    (fail reason site : Reader α).Sound bytes :=
  ⟨fun hgives => absurd hgives not_gives_fail, fun hrefuses => h (refuses_fail_iff.1 hrefuses)⟩

theorem safe_fail {reason : Reason} (h : reason ≠ .invalidUtf8) (site : Site) :
    (fail reason site : Reader α).Safe :=
  ⟨fun _ => sound_fail h site⟩

theorem safe_peek : peek.Safe :=
  ⟨fun _ => ⟨fun h => (gives_peek_iff.1 h).2 ▸ List.suffix_rfl, fun ⟨_, h⟩ => nomatch h⟩⟩

theorem safe_take : take.Safe :=
  ⟨fun _ => ⟨fun h => (gives_take_iff.1 h).2 ▸ List.tail_suffix _, fun ⟨_, h⟩ => nomatch h⟩⟩

theorem safe_scan (step : σ → UInt8 → Option σ) (state : σ) : (scan step state).Safe := by
  refine ⟨fun {front} _ => ⟨fun h => ?_, fun ⟨_, h⟩ => ?_⟩⟩
  · obtain ⟨taken, hfront, -⟩ := exists_scanned step state front
    rw [← gives_scan_iff.1 h] at hfront
    exact ⟨taken, hfront.symm⟩
  · rw [outcome_scan_text] at h
    exact nomatch h

theorem safe_passWhile (property : UInt8 → Bool) : (passWhile property).Safe :=
  safe_scan _ _

theorem safe_blanks : blanks.Safe :=
  safe_passWhile _

theorem Safe.ite {c : Prop} [Decidable c] {yes no : Reader α} (hyes : yes.Safe) (hno : no.Safe) :
    (if c then yes else no).Safe := by
  split
  · exact hyes
  · exact hno

section Loop

variable {round : σ → UInt8 → Reader (σ ⊕ α)} {atEnd : σ → Reason}
  (hround : ∀ state byte, (round state byte).Safe)
  (hend : ∀ state, atEnd state ≠ .invalidUtf8)

include hround hend

/-- A loop is safe if its rounds are. -/
theorem safe_loop (state : σ) : (loop round atEnd state).Safe := by
  refine ⟨fun {bytes} => ?_⟩
  refine loop_induction round
    (motive := fun state bytes => Remains bytes → (loop round atEnd state).Sound bytes)
    (fun state bytes ih hbytes => ?_) state bytes
  rcases bytes with _ | ⟨byte, later⟩
  · refine ⟨fun h => absurd h not_gives_loop_nil, fun ⟨place, h⟩ => ?_⟩
    rw [outcome_loop] at h
    exact hend state (congrArg Fault.reason (Except.error.inj h))
  have hlater : later <:+ byte :: later := List.suffix_cons _ _
  have hfirst := (hround state byte).sound (hbytes.of_suffix hlater)
  -- What a round leaves remains of the same text.
  have hrest : ∀ {next left}, (round state byte).Gives later (.inl next) left →
      left <:+ byte :: later ∧ (loop round atEnd next).Sound left := fun hgives =>
    have hleft := (hfirst.suffix hgives).trans hlater
    ⟨hleft, ih byte _ _ rfl hgives (hbytes.of_suffix hleft)⟩
  refine ⟨fun h => ?_, fun h => ?_⟩
  · rcases gives_loop_iff.1 h with h | ⟨next, left, hgives, h⟩
    · exact (hfirst.suffix h).trans hlater
    · obtain ⟨hleft, hsound⟩ := hrest hgives
      exact (hsound.suffix h).trans hleft
  · rcases refuses_loop_iff.1 h with h | ⟨next, left, hgives, h⟩
    · exact hfirst.reason h
    · exact (hrest hgives).2.reason h

end Loop

/-! ## White space, words and brackets -/

theorem safe_peekValue : peekValue.Safe :=
  safe_blanks.bind fun _ => safe_peek.bind fun
    | none => safe_fail (by simp) _
    | some byte => safe_pure byte

theorem safe_word (text : List Char) : (word text).Safe := by
  induction text with
  | nil => exact safe_pure ()
  | cons c later ih =>
    exact safe_take.bind fun
      | none => safe_fail (by simp) _
      | some byte => .ite ih (safe_fail (by simp) _)

theorem Safe.nested {content : (depth : Nat) → Reader α} (h : ∀ depth, (content depth).Safe) :
    ∀ depth, (nested content depth).Safe
  | 0 => safe_fail (by simp) _
  | depth + 1 => safe_take.bind fun _ => h depth

theorem safe_closeArray : closeArray.Safe := by
  refine safe_blanks.bind fun _ => safe_peek.bind fun next => ?_
  rcases next with _ | byte
  · exact safe_fail (by simp) _
  refine .ite (safe_take.bind fun _ => safe_pure _) (.ite ?_ (safe_fail (by simp) _))
  exact safe_take.bind fun _ => safe_blanks.bind fun _ => safe_peek.bind fun _ =>
    .ite (safe_fail (by simp) _) (safe_fail (by simp) _)

theorem safe_failObject {reason : Reason} (h : reason ≠ .invalidUtf8) :
    (failObject reason : Reader α).Safe :=
  safe_blanks.bind fun _ => safe_peek.bind fun _ =>
    .ite (safe_take.bind fun _ => safe_fail h _) (safe_fail h _)

theorem safe_colon : colon.Safe :=
  safe_blanks.bind fun _ => safe_peek.bind fun
    | none => safe_fail (by simp) _
    | some byte => .ite (safe_take.bind fun _ => safe_pure _) (safe_fail (by simp) _)

theorem safe_finish : finish.Safe :=
  safe_blanks.bind fun _ => safe_peek.bind fun _ => .ite (safe_fail (by simp) _) (safe_pure _)

theorem safe_nextItem (first : Bool) : (nextItem first).Safe := by
  refine safe_blanks.bind fun _ => safe_peek.bind fun next => ?_
  rcases next with _ | byte
  · exact safe_fail (by simp) _
  refine .ite (safe_pure _) (.ite (safe_pure _) (.ite ?_ (safe_fail (by simp) _)))
  refine safe_take.bind fun _ => safe_blanks.bind fun _ => safe_peek.bind fun next => ?_
  rcases next with _ | byte
  · exact safe_fail (by simp) _
  · exact .ite (safe_fail (by simp) _) (safe_pure _)

/-! ## Numbers -/

theorem safe_nextIs (property : UInt8 → Bool) : (nextIs property).Safe :=
  safe_peek.bind fun _ => safe_pure _

theorem safe_digits : digits.Safe :=
  safe_scan _ _

theorem safe_digitsWithin (limit n : Nat) : (digitsWithin limit n).Safe :=
  safe_scan _ _

theorem safe_scaled (negative : Bool) (significand : Nat) (exponent : Int) :
    (scaled negative significand exponent).Safe := by
  rw [scaled]
  cases scale? significand.toUInt64.toFloat exponent with
  | none => exact safe_fail (by simp) _
  | some x => exact safe_pure _

theorem safe_exponentSign : exponentSign.Safe :=
  (safe_nextIs _).bind fun _ => .ite (safe_take.bind fun _ => safe_pure _)
    ((safe_nextIs _).bind fun _ => .ite (safe_take.bind fun _ => safe_pure _) (safe_pure _))

theorem safe_exponentPart (negative : Bool) (significand : Nat) (known : Int) :
    (exponentPart negative significand known).Safe := by
  refine safe_take.bind fun _ => safe_exponentSign.bind fun _ => safe_take.bind fun next => ?_
  rcases next with _ | byte
  · exact safe_fail (by simp) _
  refine .ite ?_ (safe_fail (by simp) _)
  refine (safe_digitsWithin _ _).bind fun _ => (safe_nextIs _).bind fun _ =>
    .ite ?_ (safe_scaled _ _ _)
  exact safe_take.bind fun _ => .ite (safe_fail (by simp) _) (safe_digits.bind fun _ => safe_pure _)

theorem safe_exponentPart? (negative : Bool) (significand : Nat) (known : Int) :
    (exponentPart? negative significand known).Safe :=
  (safe_nextIs _).bind fun _ => .ite (safe_exponentPart _ _ _) (safe_scaled _ _ _)

theorem safe_fractionPart (negative : Bool) (significand : Nat) (known : Int) :
    (fractionPart negative significand known).Safe := by
  refine safe_take.bind fun _ => (safe_digitsWithin _ _).bind fun _ => (safe_nextIs _).bind fun _ =>
    .ite (safe_digits.bind fun _ => safe_exponentPart? _ _ _) (.ite ?_ (safe_exponentPart? _ _ _))
  refine safe_peek.bind fun next => ?_
  rcases next with _ | byte <;> exact safe_fail (by simp) _

theorem safe_afterWhole (negative : Bool) (n : Nat) : (afterWhole negative n).Safe :=
  (safe_nextIs _).bind fun _ => .ite (safe_fractionPart _ _ _)
    ((safe_nextIs _).bind fun _ => .ite (safe_exponentPart _ _ _) (safe_pure _))

theorem safe_unsignedNumber (negative : Bool) : (unsignedNumber negative).Safe := by
  refine safe_take.bind fun next => ?_
  rcases next with _ | byte
  · exact safe_fail (by simp) _
  refine .ite ?_ (.ite ?_ (safe_fail (by simp) _))
  · exact (safe_nextIs _).bind fun _ => .ite (safe_fail (by simp) _) (safe_afterWhole _ _)
  · refine (safe_digitsWithin _ _).bind fun _ => (safe_nextIs _).bind fun _ =>
      .ite ?_ (safe_afterWhole _ _)
    exact safe_digits.bind fun _ => (safe_nextIs _).bind fun _ =>
      .ite (safe_fractionPart _ _ _) (safe_exponentPart? _ _ _)

theorem safe_number : number.Safe :=
  (safe_nextIs _).bind fun _ =>
    .ite (safe_take.bind fun _ => safe_unsignedNumber _) (safe_unsignedNumber _)

theorem safe_skipExponent : skipExponent.Safe :=
  safe_take.bind fun _ => safe_exponentSign.bind fun _ => safe_take.bind fun
    | none => safe_fail (by simp) _
    | some byte => .ite (safe_digits.bind fun _ => safe_pure _) (safe_fail (by simp) _)

theorem safe_skipNumberFrom (byte : UInt8) : (skipNumberFrom byte).Safe := by
  -- The whole part, the fraction and the exponent follow each other, each in several cases.
  have hexponent : ∀ _ : Unit,
      (nextIs Byte.isExponentMark >>= fun found => if found then skipExponent else pure ()).Safe :=
    fun _ => (safe_nextIs _).bind fun _ => .ite safe_skipExponent (safe_pure _)
  have hfraction : ∀ _ : Unit, (do
      if ← nextIs (· = Byte.point) then
        let _ ← take
        if (← digits) = 0 then fail .invalidNumber .ahead
      if ← nextIs Byte.isExponentMark then skipExponent).Safe :=
    fun _ => (safe_nextIs _).bind fun _ => .ite (safe_take.bind fun _ => safe_digits.bind fun _ =>
      .ite ((safe_fail (by simp) _).bind hexponent) (hexponent ())) (hexponent ())
  refine .ite ?_ (.ite ?_ ((safe_fail (by simp) _).bind hfraction))
  · exact (safe_nextIs _).bind fun _ =>
      .ite ((safe_fail (by simp) _).bind hfraction) (hfraction ())
  · exact safe_digits.bind fun _ => hfraction ()

theorem safe_skipNegative : skipNegative.Safe :=
  safe_take.bind fun
    | none => safe_fail (by simp) _
    | some byte => safe_skipNumberFrom byte

/-! ## Strings -/

theorem safe_hexEscape : hexEscape.Safe := by
  refine ⟨fun _ => ⟨fun h => ?_, fun h => ?_⟩⟩
  · obtain ⟨a, b, c, d, hbytes, -⟩ := gives_hexEscape_iff.1 h
    exact ⟨[a, b, c, d], hbytes.symm⟩
  · exact absurd (refuses_hexEscape h) (by simp)

theorem safe_surrogateMark (mark : UInt8) : (surrogateMark mark).Safe :=
  safe_take.bind fun
    | none => safe_fail (by simp) _
    | some byte => .ite (safe_fail (by simp) _) (safe_pure _)

theorem safe_numberedEscape : numberedEscape.Safe :=
  safe_hexEscape.bind fun _ => .ite (safe_fail (by simp) _)
    (.ite ((safe_surrogateMark _).bind fun _ => (safe_surrogateMark _).bind fun _ =>
      safe_hexEscape.bind fun _ => .ite (safe_pure _) (safe_fail (by simp) _)) (safe_pure _))

theorem safe_escape : escape.Safe := by
  refine safe_take.bind fun next => ?_
  rcases next with _ | byte
  · exact safe_fail (by simp) _
  · dsimp only
    cases simpleEscape? byte with
    | some plain => exact safe_pure _
    | none => exact .ite safe_numberedEscape (safe_fail (by simp) _)

theorem safe_skipEscape : skipEscape.Safe :=
  safe_take.bind fun
    | none => safe_fail (by simp) _
    | some byte => .ite (safe_pure _)
      (.ite (safe_hexEscape.bind fun _ => safe_pure _) (safe_fail (by simp) _))

theorem safe_stringBytes : stringBytes.Safe := by
  refine safe_loop (fun taken byte => ?_) (by simp) _
  exact .ite (safe_pure _) (.ite (safe_escape.bind fun _ => safe_pure _)
    (.ite (safe_fail (by simp) _) (safe_pure _)))

theorem safe_skipPlain : skipPlain.Safe :=
  (safe_passWhile _).bind fun _ => safe_peek.bind fun _ =>
    .ite (safe_fail (by simp) _) (safe_pure _)

theorem safe_skipString : skipString.Safe := by
  refine safe_skipPlain.bind fun _ => safe_loop (fun _ byte => ?_) (by simp) _
  exact .ite (safe_pure _)
    (safe_skipEscape.bind fun _ => safe_skipPlain.bind fun _ => safe_pure _)

theorem sound_asText {taken : List UInt8} {text : String} (h : ofBytes? taken = some text) :
    (asText taken).Sound bytes := by
  refine ⟨fun hgives => (gives_asText_iff.1 hgives).2 ▸ List.suffix_rfl, fun ⟨_, hrefuses⟩ => ?_⟩
  rw [outcome_asText, h] at hrefuses
  exact nomatch hrefuses

/-- Behind a quote a character begins, so that the string is cut out of a text. -/
theorem sound_stringRest {rest : List UInt8} (h : Remains (Byte.quote :: rest)) :
    stringRest.Sound rest := by
  obtain ⟨later, rfl⟩ := h.exists_encoded (by decide)
  refine (safe_stringBytes.sound (h.of_suffix (List.suffix_cons _ _))).bind fun hgives => ?_
  obtain ⟨meant, hmeant⟩ := exists_ofBytes?_of_gives_stringBytes hgives
  exact sound_asText hmeant

/-! ## Looking at the next byte -/

theorem Sound.ite {c : Prop} [Decidable c] {yes no : Reader α} (hyes : c → yes.Sound bytes)
    (hno : ¬c → no.Sound bytes) : (if c then yes else no).Sound bytes := by
  split
  · next h => exact hyes h
  · next h => exact hno h

theorem sound_take_bind {next : Option UInt8 → Reader α} {byte : UInt8} {rest : List UInt8}
    (h : (next (some byte)).Sound rest) (hbytes : Remains (byte :: rest)) :
    (take >>= next).Sound (byte :: rest) := by
  refine (safe_take.sound hbytes).bind fun hgives => ?_
  obtain ⟨rfl, rfl⟩ := gives_take_iff.1 hgives
  exact h

/-- A reader that goes on with the next byte is safe if it is sound where it has this byte in
    front. -/
theorem Safe.peek_bind {next : Option UInt8 → Reader α} (hnone : (next none).Safe)
    (hsome : ∀ {byte rest}, Remains (byte :: rest) → (next (some byte)).Sound (byte :: rest)) :
    (peek >>= next).Safe := by
  refine ⟨fun {front} hfront => (safe_peek.sound hfront).bind fun {given mid} hgives => ?_⟩
  obtain ⟨rfl, rfl⟩ := gives_peek_iff.1 hgives
  cases mid with
  | nil => exact hnone.sound hfront
  | cons byte rest => exact hsome hfront

theorem Safe.peekValue_bind {next : UInt8 → Reader α}
    (h : ∀ {byte rest}, Remains (byte :: rest) → (next byte).Sound (byte :: rest)) :
    (peekValue >>= next).Safe := by
  rw [peekValue, bind_assoc]
  refine safe_blanks.bind fun _ => ?_
  rw [bind_assoc]
  have hend : (fail .endInValue .ahead >>= next : Reader α) = fail .endInValue .ahead := rfl
  refine .peek_bind ?_ fun hbytes => ?_
  · exact hend ▸ safe_fail (by simp) _
  · rw [pure_bind]
    exact h hbytes

theorem sound_nameAt {byte : UInt8} {rest : List UInt8} (h : Remains (byte :: rest)) :
    (nameAt byte).Sound (byte :: rest) :=
  .ite (fun hbyte => sound_take_bind (sound_stringRest (hbyte ▸ h)) h)
    fun _ => sound_fail (by simp) _

/-! ## Values passed over -/

theorem safe_skipValueFrom (enclosures : List Enclosure) (byte : UInt8) :
    (skipValueFrom enclosures byte).Safe := by
  have hafter : ∀ _ : Unit, (pure (afterValue enclosures) : Reader (Pass ⊕ Unit)).Safe :=
    fun _ => safe_pure _
  exact .ite (safe_pure _) (.ite (safe_pure _)
    (.ite (safe_skipString.bind hafter) (.ite (safe_skipNegative.bind hafter)
      (.ite ((safe_skipNumberFrom _).bind hafter) (.ite ((safe_word _).bind hafter)
        (.ite ((safe_word _).bind hafter) (.ite ((safe_word _).bind hafter)
          ((safe_fail (by simp) _).bind hafter))))))))

theorem safe_skipNameFrom (enclosures : List Enclosure) (byte : UInt8) :
    (skipNameFrom enclosures byte).Safe :=
  .ite (safe_skipString.bind fun _ => safe_colon.bind fun _ => safe_pure _)
    (safe_fail (by simp) _)

theorem safe_skipEntryFrom (innermost : Enclosure) (outer : List Enclosure) (byte : UInt8) :
    (skipEntryFrom innermost outer byte).Safe := by
  cases innermost with
  | array => exact safe_skipValueFrom _ _
  | object => exact safe_skipNameFrom _ _

theorem safe_skipRound (pass : Pass) (byte : UInt8) : (skipRound pass byte).Safe := by
  refine .ite (safe_pure _) ?_
  rcases pass with ⟨due, enclosures⟩
  cases due with
  | value => exact safe_skipValueFrom _ _
  | name => exact safe_skipNameFrom _ _
  | first =>
    cases enclosures with
    | nil => exact safe_pure _
    | cons innermost outer => exact .ite (safe_pure _) (safe_skipEntryFrom _ _ _)
  | comma =>
    rcases enclosures with _ | ⟨innermost, outer⟩
    · exact safe_pure _
    · have hcomma : innermost.expectedComma ≠ .invalidUtf8 := by
        cases innermost <;> simp [Enclosure.expectedComma]
      refine .ite (safe_pure _) (.ite ?_ (safe_fail hcomma _))
      cases innermost <;> exact safe_pure _

theorem safe_skipValue : skipValue.Safe := by
  refine safe_loop safe_skipRound ?_ _
  rintro ⟨due, enclosures⟩
  rcases enclosures with _ | ⟨_ | _, outer⟩ <;> cases due <;> simp [Pass.atEnd, Enclosure.atEnd]

/-! ## Arrays and objects -/

theorem safe_itemRound {item : Reader α} (h : item.Safe) (taken : List α) (byte : UInt8) :
    (itemRound item taken byte).Safe := by
  refine .ite (safe_pure _) (.ite (safe_pure _) (.ite ?_ (safe_fail (by simp) _)))
  refine safe_blanks.bind fun _ => safe_peek.bind fun next => ?_
  rcases next with _ | byte
  · exact safe_fail (by simp) _
  · exact .ite (safe_fail (by simp) _) (h.bind fun _ => safe_pure _)

theorem Safe.items {item : Reader α} (h : item.Safe) : (items item).Safe :=
  (safe_nextItem _).bind fun _ =>
    .ite (h.bind fun _ => safe_loop (safe_itemRound h) (by simp) _)
      (safe_take.bind fun _ => safe_pure _)

/-- A reader that goes on with a name is sound where the name begins. -/
theorem sound_nameAt_bind {next : String → Reader α} (h : ∀ name, (next name).Safe) {byte : UInt8}
    {rest : List UInt8} (hbytes : Remains (byte :: rest)) :
    (nameAt byte >>= next).Sound (byte :: rest) :=
  (sound_nameAt hbytes).bind fun hgives =>
    (h _).sound (hbytes.of_suffix ((sound_nameAt hbytes).suffix hgives))

section Members

variable {member : σ → String → Reader σ} (h : ∀ state name, (member state name).Safe)

include h

theorem safe_memberRound (state : σ) (byte : UInt8) : (memberRound member state byte).Safe := by
  refine .ite (safe_pure _) (.ite (safe_pure _) (.ite ?_ (safe_fail (by simp) _)))
  refine safe_blanks.bind fun _ => .peek_bind (safe_fail (by simp) _) fun hbytes => ?_
  refine .ite (fun _ => sound_fail (by simp) _) fun _ => ?_
  exact sound_nameAt_bind (fun name => (h _ _).bind fun _ => safe_pure _) hbytes

theorem Safe.members (state : σ) : (members member state).Safe := by
  refine safe_blanks.bind fun _ => .peek_bind (safe_fail (by simp) _) fun hbytes => ?_
  refine .ite (fun _ => (safe_take.bind fun _ => safe_pure _).sound hbytes) fun _ => ?_
  exact sound_nameAt_bind
    (fun name => (h _ _).bind fun _ => safe_loop (safe_memberRound h) (by simp) _) hbytes

end Members

end Reader

open Reader

variable {α τ : Type}

namespace Decoder

/-- Whether a decoder is safe at any depth. -/
def Safe (decoder : Decoder α) : Prop :=
  ∀ depth, (decoder depth).Safe

theorem safe_mismatch (expected : String) : (mismatch expected : Reader α).Safe := by
  have hword : ∀ (text : List Char) (found : Found), (take >>= fun _ => word text >>= fun _ =>
      fail (.invalidType found expected) .behind : Reader α).Safe :=
    fun text found => safe_take.bind fun _ => (safe_word text).bind fun _ => safe_fail (by simp) _
  refine .peekValue_bind fun hbytes => ?_
  -- What is found instead may be a word, a number, a string, or the beginning of a collection.
  refine .ite (fun _ => (hword _ _).sound hbytes) fun _ => ?_
  refine .ite (fun _ => (hword _ _).sound hbytes) fun _ => ?_
  refine .ite (fun _ => (hword _ _).sound hbytes) fun _ => ?_
  refine .ite (fun _ => (safe_number.bind fun _ => safe_fail (by simp) _).sound hbytes) fun _ => ?_
  refine .ite (fun hquote => ?_) fun _ => ?_
  · have hstring := sound_stringRest (hquote ▸ hbytes)
    exact sound_take_bind (hstring.bind fun _ => sound_fail (by simp) _) hbytes
  · exact .ite (fun _ => sound_fail (by simp) _) fun _ =>
      .ite (fun _ => sound_fail (by simp) _) fun _ => sound_fail (by simp) _

theorem safe_stringOf (expected : String) : (stringOf expected).Safe :=
  .peekValue_bind fun hbytes =>
    .ite (fun hquote => sound_take_bind (sound_stringRest (hquote ▸ hbytes)) hbytes)
      fun _ => (safe_mismatch _).sound hbytes

theorem safe_string : Decoder.string.Safe :=
  fun _ => safe_stringOf _

theorem Safe.list {decoder : Decoder α} (h : decoder.Safe) : (Decoder.list decoder).Safe :=
  fun depth => safe_peekValue.bind fun _ =>
    .ite (.nested (fun depth => (h depth).items) depth) (safe_mismatch _)

/-- A text is never refused for not being UTF-8. -/
theorem reason_ne_of_decode {decoder : Decoder α} (h : decoder.Safe) {text : String}
    {fault : Fault Position} (hfault : decoder.decode (Text.bytes text) = .error fault) :
    fault.reason ≠ .invalidUtf8 := by
  have hall : decoder.whole.Safe :=
    (h _).bind fun _ => safe_finish.bind fun _ => safe_pure _
  rw [bytes_eq_encoded] at hfault
  intro hreason
  exact (hall.sound ⟨_, List.suffix_rfl⟩).reason (hreason ▸ refuses_of_decode hfault)

end Decoder

namespace Record

theorem safe_field {β : Type} {name : String} {presence : Presence} {decoder : Decoder β}
    {store : τ → β → τ} (h : decoder.Safe) (r : τ) :
    ((Record.field name presence decoder store).read r).Safe :=
  fun depth => (h depth).bind fun _ => safe_pure _

variable {record : Record τ}
  (h : ∀ field ∈ record.fields, ∀ r, (field.read r).Safe)

include h

theorem safe_member (depth : Nat) (part : Partial τ) (name : String) :
    (record.member depth part name).Safe := by
  rw [member]
  -- The value of a name that the record does not have is passed over.
  cases hfind : record.fields.find? (·.name = name) with
  | none => exact safe_colon.bind fun _ => safe_skipValue.bind fun _ => safe_pure _
  | some field =>
    have hfield := h field (List.mem_of_find?_eq_some hfind) part.record
    exact .ite (safe_failObject (by simp))
      (safe_colon.bind fun _ => (hfield depth).bind fun _ => safe_pure _)

theorem safe_fromObject (depth : Nat) : (record.fromObject depth).Safe := by
  refine (Reader.Safe.members (safe_member h depth) _).bind fun part => ?_
  cases record.missing? part.given with
  | none => exact safe_pure _
  | some name => exact safe_fail (by simp) _

omit h in
theorem safe_fromItems {fields : List (Field τ)} (h : ∀ field ∈ fields, ∀ r, (field.read r).Safe)
    (depth : Nat) (r : τ) (index : Nat) : (record.fromItems depth r index fields).Safe := by
  induction fields generalizing r index with
  | nil => exact safe_closeArray.bind fun _ => safe_pure _
  | cons field later ih =>
    have hlater := ih fun field hfield => h field (List.mem_cons_of_mem _ hfield)
    refine (safe_nextItem _).bind fun _ => .ite ?_ (.ite (hlater _ _) ?_)
    · exact (h field List.mem_cons_self r depth).bind fun r => hlater r _
    · exact safe_take.bind fun _ => safe_fail (by simp) _

/-- A record is read safely if all of its fields are. -/
theorem safe_decoder : record.decoder.Safe :=
  fun depth => safe_peekValue.bind fun _ =>
    .ite (.nested (fun depth => safe_fromItems h depth _ _) depth)
      (.ite (.nested (safe_fromObject h) depth) (Decoder.safe_mismatch _))

end Record

end SchemaMatch.Json

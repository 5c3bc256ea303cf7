import SchemaMatch.Json.Record
import SchemaMatch.Json.Reader.Value
import SchemaMatch.Proofs.Decimal.Layout
import SchemaMatch.Proofs.Json.Numbers
import SchemaMatch.Proofs.Json.Strings

/-!
# Texts that readers read

A reader *reads* a text as a value (`Reader.Reads`) if it gives this value from any bytes that have
the text in front, after white space or none, and takes no more than the text. What follows may be
anything that does not go on with a number. A text is to begin with the value itself, and so neither
with white space nor with a closing bracket (`Starts`).

This module has the values that are not put together from others: strings, names, numbers, and the
absence of a value. A double-precision number is read as itself if it reads back (`ReadsBack`),
which is asked of its text alone; a whole number of at most 64 bits always is.
-/

namespace SchemaMatch.Json

open Text

/-! ## White space -/

theorem forall_mem_spaces {p : Char → Prop} :
    (∀ c ∈ spaces, p c) ↔ p ' ' ∧ p '\n' ∧ p '\t' ∧ p '\r' := by
  simp [spaces]

theorem forall_mem_pair {c d : Char} {p : Char → Prop} : (∀ e ∈ [c, d], p e) ↔ p c ∧ p d := by
  simp

theorem ascii_of_mem_spaces {c : Char} (h : c ∈ spaces) : c.toNat < 0x80 := by
  have hall : ∀ d ∈ spaces, d.toNat < 0x80 := forall_mem_spaces.2 (by decide)
  exact hall c h

theorem isBlank_of_mem_spaces {c : Char} (h : c ∈ spaces) :
    Byte.isBlank (Byte.ofChar c) = true := by
  have hall : ∀ d ∈ spaces, Byte.isBlank (Byte.ofChar d) = true :=
    forall_mem_spaces.2 (by decide)
  exact hall c h

theorem afterBlanks_encoded_append {text : List Char} (h : Gap text)
    (rest : List UInt8) : afterBlanks (encoded text ++ rest) = afterBlanks rest := by
  induction text with
  | nil => rfl
  | cons c later ih =>
    have hc := h c (by simp)
    rw [encoded_cons_of_ascii (ascii_of_mem_spaces hc), List.cons_append, afterBlanks_cons,
      if_pos (isBlank_of_mem_spaces hc), ih fun d hd => h d (List.mem_cons_of_mem _ hd)]

/-- Whether a byte may begin a value: it is neither white space nor a closing bracket. -/
def Byte.BeginsValue (b : UInt8) : Prop :=
  Byte.isBlank b = false ∧ b ≠ Byte.closeBracket ∧ b ≠ Byte.closeBrace

instance (b : UInt8) : Decidable (Byte.BeginsValue b) :=
  inferInstanceAs (Decidable (_ ∧ _))

/-- Whether a byte may begin a number. -/
def Byte.BeginsNumber (b : UInt8) : Prop :=
  b = Byte.minus ∨ Byte.isDigit b = true

instance (b : UInt8) : Decidable (Byte.BeginsNumber b) :=
  inferInstanceAs (Decidable (_ ∨ _))

theorem Byte.beginsNumber_iff {b : UInt8} :
    BeginsNumber b ↔ b = Byte.minus ∨ Byte.isDigit b = true :=
  Iff.rfl

theorem Byte.BeginsNumber.ne {b : UInt8} (h : BeginsNumber b) (other : UInt8)
    (hother : ¬BeginsNumber other) : b ≠ other :=
  fun e => hother (e ▸ h)

theorem Byte.BeginsNumber.beginsValue {b : UInt8} (h : BeginsNumber b) : BeginsValue b := by
  have hblank : Byte.isBlank b = false := by
    simp [Byte.isBlank, h.ne 0x20 (by decide), h.ne 0x0A (by decide), h.ne 0x09 (by decide),
      h.ne 0x0D (by decide)]
  exact ⟨hblank, h.ne _ (by decide), h.ne _ (by decide)⟩

/-- Whether some bytes begin with what may begin a value. -/
def Starts (bytes : List UInt8) : Prop :=
  ∃ byte later, bytes = byte :: later ∧ Byte.BeginsValue byte

theorem Starts.append {bytes : List UInt8} (h : Starts bytes) (rest : List UInt8) :
    Starts (bytes ++ rest) := by
  obtain ⟨byte, later, rfl, h⟩ := h
  exact ⟨byte, later ++ rest, rfl, h⟩

theorem Starts.afterBlanks_eq {bytes : List UInt8} (h : Starts bytes) :
    afterBlanks bytes = bytes := by
  obtain ⟨byte, later, rfl, hbyte, -⟩ := h
  simp [afterBlanks_cons, hbyte]

theorem ends_nil : Ends [] :=
  fun _ h => nomatch h

theorem ends_encoded_cons {c : Char} (hascii : c.toNat < 0x80)
    (hc : Byte.isNumeral (Byte.ofChar c) = false) (later : List Char) (rest : List UInt8) :
    Ends (encoded (c :: later) ++ rest) := by
  rw [encoded_cons_of_ascii hascii, List.cons_append]
  rintro b ⟨⟩
  exact hc

/-- No number goes on over white space. -/
theorem Gap.ends {gap : List Char} (h : Gap gap) {rest : List UInt8} (hrest : Ends rest) :
    Ends (encoded gap ++ rest) := by
  cases gap with
  | nil => exact hrest
  | cons c later =>
    have hc : c ∈ spaces := h c (by simp)
    have hall : ∀ d ∈ spaces, Byte.isNumeral (Byte.ofChar d) = false :=
      forall_mem_spaces.2 (by decide)
    exact ends_encoded_cons (ascii_of_mem_spaces hc) (hall c hc) later rest

/-! ## Reading a text -/

/-- Whether a reader reads a text as a value, whatever follows that does not go on with a number. -/
structure Reader.Reads {α : Type} (reader : Reader α) (text : List Char) (value : α) : Prop where
  starts : Starts (encoded text)
  gives : ∀ {bytes rest}, afterBlanks bytes = encoded text ++ rest → Ends rest →
    reader.Gives bytes value rest

namespace Reader

variable {α β : Type}

theorem Reads.gives_encoded {reader : Reader α} {text : List Char} {value : α}
    (h : reader.Reads text value) {rest : List UInt8} (hrest : Ends rest) :
    reader.Gives (encoded text ++ rest) value rest :=
  h.gives (h.starts.append rest).afterBlanks_eq hrest

theorem Reads.map {reader : Reader α} {text : List Char} {value : α} (h : reader.Reads text value)
    (f : α → β) : (f <$> reader).Reads text (f value) :=
  ⟨h.starts, fun hbytes hrest => gives_map_iff.2 ⟨value, h.gives hbytes hrest, rfl⟩⟩

/-- What is read may be looked at, if nothing more is taken. -/
theorem Reads.bind {reader : Reader α} {text : List Char} {value : α} {given : β}
    {next : α → Reader β} (h : reader.Reads text value) (hnext : next value = pure given) :
    (reader >>= next).Reads text given :=
  ⟨h.starts, fun hbytes hrest =>
    gives_bind_iff.2 ⟨value, _, h.gives hbytes hrest, hnext ▸ gives_pure_iff.2 ⟨rfl, rfl⟩⟩⟩

theorem gives_peekValue_bind {next : UInt8 → Reader β} {byte : UInt8}
    {bytes later rest : List UInt8} {value : β} (h : afterBlanks bytes = byte :: later) :
    (peekValue >>= next).Gives bytes value rest ↔ (next byte).Gives (byte :: later) value rest := by
  simp [peekValue, bind_assoc, h]

/-- A reader that looks at the first byte of a value reads a text as the reader does that it goes on
    with. -/
theorem reads_peekValue_bind {next : UInt8 → Reader α} {text : List Char} {byte : UInt8}
    {later : List UInt8} {value : α} (htext : encoded text = byte :: later)
    (hbyte : Byte.BeginsValue byte)
    (h : ∀ rest, Ends rest → (next byte).Gives (byte :: (later ++ rest)) value rest) :
    (peekValue >>= next).Reads text value := by
  refine ⟨⟨byte, later, htext, hbyte⟩, fun hbytes hrest => ?_⟩
  rw [htext, List.cons_append] at hbytes
  exact (gives_peekValue_bind hbytes).2 (h _ hrest)

theorem gives_word {text : List Char} (h : ∀ c ∈ text, c.toNat < 0x80) (rest : List UInt8) :
    (word text).Gives (encoded text ++ rest) () rest := by
  induction text with
  | nil => simp [word]
  | cons c later ih =>
    rw [encoded_cons_of_ascii (h c (by simp)), word, List.cons_append, gives_take_bind]
    simpa using ih fun d hd => h d (List.mem_cons_of_mem _ hd)

end Reader

open Reader

namespace Decoder

variable {α : Type} {decoder : Decoder α} {value : α}

/-- Some bytes are decoded as what the decoder gives from them if only white space is left. -/
theorem decode_eq_ok_iff {bytes : List UInt8} :
    decoder.decode bytes = .ok value ↔
      ∃ left, (decoder depthLimit).Gives bytes value left ∧ afterBlanks left = [] := by
  have hfinish : ∀ given left rest,
      (finish >>= fun _ => pure given : Reader α).Gives left value rest ↔
        value = given ∧ rest = afterBlanks left ∧ afterBlanks left = [] := by
    intro given left rest
    cases h : afterBlanks left with
    | nil => simp [finish, h]
    | cons byte later => simp [finish, gives_bind_iff, h]
  rw [decode_eq_ok_iff_gives]
  constructor
  · rintro ⟨rest, h⟩
    obtain ⟨given, left, hgiven, h⟩ := gives_bind_iff.1 h
    obtain ⟨rfl, -, hleft⟩ := (hfinish given left rest).1 h
    exact ⟨left, hgiven, hleft⟩
  · rintro ⟨left, hgiven, hleft⟩
    have hend := (hfinish value left _).2 ⟨rfl, rfl, hleft⟩
    exact ⟨_, gives_bind_iff.2 ⟨value, left, hgiven, hend⟩⟩

/-- A text that is read is all that there is to read, but for white space around it. -/
theorem decode_encoded_gaps {text : List Char} (h : (decoder depthLimit).Reads text value)
    {front back : List Char} (hfront : Gap front) (hback : Gap back) :
    decoder.decode (encoded (front ++ (text ++ back))) = .ok value := by
  have hafter : afterBlanks (encoded (front ++ (text ++ back))) = encoded text ++ encoded back := by
    rw [encoded_append, encoded_append, afterBlanks_encoded_append hfront,
      (h.starts.append _).afterBlanks_eq]
  have hends : Ends (encoded back) := by simpa using hback.ends ends_nil
  have hleft : afterBlanks (encoded back) = [] := by
    rw [← List.append_nil (encoded back)]
    exact afterBlanks_encoded_append hback []
  exact decode_eq_ok_iff.2 ⟨_, h.gives hafter hends, hleft⟩

theorem decode_encoded {text : List Char} (h : (decoder depthLimit).Reads text value) :
    decoder.decode (encoded text) = .ok value := by
  simpa using decode_encoded_gaps h gap_nil gap_nil

/-! ## Strings -/

theorem reads_stringOf (expected text : String) :
    (stringOf expected).Reads (stringChars text) text := by
  refine reads_peekValue_bind (encoded_cons_of_ascii (by decide) _) (by decide) fun rest _ => ?_
  rw [if_pos (by decide), gives_take_bind]
  exact gives_stringRest (spells_written _) rest

theorem reads_string (depth : Nat) (text : String) :
    (Decoder.string depth).Reads (stringChars text) text :=
  reads_stringOf "a string" text

/-- A name of a table is read as what it stands for, however it is spelled. -/
theorem reads_named {table : List (String × α)} {name : String} (h : table.lookup name = some value)
    {text : List Char} (hspells : Spells text name.toList) (depth : Nat) :
    (Decoder.named table depth).Reads ('"' :: (text ++ ['"'])) value := by
  refine reads_peekValue_bind (encoded_cons_of_ascii (by decide) _) (by decide) fun rest _ => ?_
  rw [if_pos (by decide), gives_take_bind]
  refine gives_bind_iff.2 ⟨name, rest, gives_stringRest hspells rest, ?_⟩
  simp [Json.lookup, h]

/-! ## Values that may be absent -/

theorem reads_optional_null (decoder : Decoder α) (depth : Nat) :
    (Decoder.optional decoder depth).Reads ['n', 'u', 'l', 'l'] none := by
  have hbytes := encoded_cons_of_ascii (c := 'n') (by decide) ['u', 'l', 'l']
  refine ⟨⟨_, _, hbytes, by decide⟩, fun {bytes rest} hafter _ => ?_⟩
  rw [hbytes, List.cons_append] at hafter
  rw [Decoder.optional, gives_blanks_bind, gives_peek_bind, hafter, List.head?_cons, if_pos rfl,
    gives_take_bind]
  exact gives_bind_iff.2 ⟨(), rest, gives_word (by simp) rest, by simp⟩

/-- A value that may be absent is read as it is, if it does not begin as `null` does. -/
theorem reads_optional_some {depth : Nat} {text : List Char} (h : (decoder depth).Reads text value)
    (hnull : (encoded text).head? ≠ some (Byte.ofChar 'n')) :
    (Decoder.optional decoder depth).Reads text (some value) := by
  refine ⟨h.starts, fun {bytes rest} hafter hrest => ?_⟩
  have hhead : (encoded text ++ rest).head? ≠ some (Byte.ofChar 'n') := by
    obtain ⟨byte, later, htext, -⟩ := h.starts
    simpa [htext] using hnull
  rw [Decoder.optional, gives_blanks_bind, gives_peek_bind, hafter, if_neg hhead]
  exact (h.map some).gives_encoded hrest

/-! ## Numbers -/

/-- A value of another kind than expected is never given. -/
theorem not_gives_mismatch {expected : String} {bytes rest : List UInt8} :
    ¬(mismatch expected).Gives bytes value rest := by
  intro h
  obtain ⟨byte, mid, -, h⟩ := gives_bind_iff.1 h
  split_ifs at h <;> simp [gives_bind_iff] at h

end Decoder

/-- Whether a double-precision number is read from its text as the same number. -/
def ReadsBack (x : Float) : Prop :=
  Decoder.double.decode (Text.bytes (Decimal.ofDouble x)) = .ok x

instance (x : Float) : Decidable (ReadsBack x) :=
  decidable_of_iff
    ((Decoder.double.decode (Text.bytes (Decimal.ofDouble x))).toOption = some x) <| by
      rw [ReadsBack]
      cases Decoder.double.decode (Text.bytes (Decimal.ofDouble x)) <;> simp [Except.toOption]

/-- Whether a number is read as it was written, wherever it stands. -/
structure Number.Readable (n : Number) : Prop where
  starts : ∃ byte later, encoded n.chars = byte :: later ∧ Byte.BeginsNumber byte
  gives : ∀ {rest}, Ends rest → number.Gives (encoded n.chars ++ rest) n rest

theorem not_mem_spaces_of_isDigit {c : Char} (h : c.isDigit = true) : c ∉ spaces := by
  have hall : ∀ d ∈ spaces, d.isDigit = false := forall_mem_spaces.2 (by decide)
  exact fun hmem => absurd h (by simp [hall c hmem])

theorem Digits.not_mem_spaces {text : List Char} (h : Digits text) : ∀ c ∈ text, c ∉ spaces :=
  fun c hc => not_mem_spaces_of_isDigit (h.2 c hc)

/-- No number has white space in it. -/
theorem NumberText.not_mem_spaces {text : List Char} (h : NumberText text) :
    ∀ c ∈ text, c ∉ spaces := by
  obtain ⟨sign, hsign, whole, fraction, exponent, rfl, hwhole, hfraction, hexponent⟩ := h
  simp only [List.mem_append, or_imp, forall_and]
  refine ⟨?_, ?_, ?_, ?_⟩
  · have hsigns : ∀ sign ∈ [[], ['-']], ∀ c ∈ sign, c ∉ spaces := by simp [spaces]
    exact hsigns sign hsign
  · obtain rfl | ⟨hdigits, -⟩ := hwhole
    · exact List.forall_mem_singleton.2 (by decide)
    · exact hdigits.not_mem_spaces
  · obtain rfl | ⟨digits, rfl, hdigits⟩ := hfraction
    · exact fun c hc => absurd hc List.not_mem_nil
    · exact List.forall_mem_cons.2 ⟨by decide, hdigits.not_mem_spaces⟩
  · obtain rfl | ⟨mark, hmark, sign, hsign, digits, rfl, hdigits⟩ := hexponent
    · exact fun c hc => absurd hc List.not_mem_nil
    · have hmarks : ∀ c ∈ ['e', 'E'], c ∉ spaces := by simp [spaces]
      have hsigns : ∀ sign ∈ [[], ['+'], ['-']], ∀ c ∈ sign, c ∉ spaces := by simp [spaces]
      refine List.forall_mem_cons.2 ⟨hmarks mark hmark, fun c hc => ?_⟩
      exact (List.mem_append.1 hc).elim (hsigns sign hsign c) (hdigits.not_mem_spaces c)

theorem not_mem_spaces_of_isDecimal {c : Char} (h : Decimal.IsDecimal c) : c ∉ spaces := by
  rcases h with h | rfl | rfl | rfl | rfl
  · exact not_mem_spaces_of_isDigit h
  all_goals decide

/-- No byte of a character other than white space is white space. -/
theorem isBlank_of_mem_encoded {text : List Char} (htext : ∀ c ∈ text, c ∉ spaces) {b : UInt8}
    (hb : b ∈ encoded text) : Byte.isBlank b = false := by
  obtain ⟨c, hc, hb⟩ := List.mem_flatMap.1 hb
  rw [Bool.eq_false_iff]
  intro hblank
  rcases Nat.lt_or_ge c.toNat 0x80 with hascii | hbeyond
  · have hall : ∀ n < 0x80,
        Byte.isBlank (Byte.ofChar (Char.ofNat n)) = true → Char.ofNat n ∈ spaces := by decide
    rw [utf8EncodeChar_of_ascii hascii, List.mem_singleton] at hb
    rw [hb, ← Char.ofNat_toNat c] at hblank
    exact htext c hc (Char.ofNat_toNat c ▸ hall c.toNat hascii hblank)
  · have hle := le_of_mem_utf8EncodeChar hbeyond hb
    simp only [Byte.isBlank, decide_eq_true_eq] at hblank
    rcases hblank with rfl | rfl | rfl | rfl <;> exact absurd hle (by decide)

/-- What is decoded from a text without white space is a number that takes all of it. -/
theorem exists_gives_number {text : List Char} {x : Float} (htext : ∀ c ∈ text, c ∉ spaces)
    (h : Decoder.double.decode (encoded text) = .ok x) :
    (∃ byte later, encoded text = byte :: later ∧ Byte.BeginsNumber byte) ∧
      ∃ n : Number, number.Gives (encoded text) n [] ∧ x = n.toDouble := by
  obtain ⟨left, hdouble, hleft⟩ := Decoder.decode_eq_ok_iff.1 h
  obtain ⟨n, hnumberOf, rfl⟩ := gives_map_iff.1 hdouble
  cases hbytes : encoded text with
  | nil =>
    obtain ⟨byte, mid, hpeek, -⟩ := gives_bind_iff.1 (hbytes ▸ hnumberOf)
    simp [peekValue, afterBlanks] at hpeek
  | cons byte later =>
    have hblank : ∀ b ∈ byte :: later, Byte.isBlank b = false :=
      fun b hb => isBlank_of_mem_encoded htext (hbytes ▸ hb)
    have hafter : afterBlanks (byte :: later) = byte :: later := by
      simp [afterBlanks_cons, hblank byte (by simp)]
    rw [hbytes, Decoder.numberOf, gives_peekValue_bind hafter] at hnumberOf
    split at hnumberOf
    case isFalse => exact absurd hnumberOf Decoder.not_gives_mismatch
    case isTrue hbyte =>
    -- Only white space may be left, of which the text has none.
    have hnil : left = [] := by
      have hsuffix := (steady_number n left hnumberOf).1
      cases left with
      | nil => rfl
      | cons b more => simp [afterBlanks_cons, hblank b (hsuffix.subset (by simp))] at hleft
    exact ⟨⟨byte, later, rfl, hbyte⟩, n, hnil ▸ hnumberOf, rfl⟩

/-- A decimal is read as a number in double precision: no other has a point or an `e`. -/
theorem exists_double_of_gives_number {text : List Char} {n : Number}
    (htext : Decimal.IsFractional text) (h : number.Gives (encoded text) n []) :
    ∃ x, n = .double x := by
  refine Classical.byContradiction fun hn => ?_
  obtain ⟨taken, htaken, hdigits⟩ := digits_of_number hn h
  rw [List.append_nil] at htaken
  rw [← htaken] at hdigits
  rcases htext.mark with hmark | hmark
  · exact absurd (hdigits _ (mem_encoded_of_mem (by decide) hmark)) (by decide)
  · exact absurd (hdigits _ (mem_encoded_of_mem (by decide) hmark)) (by decide)

theorem Number.readable_double {x : Float} (hx : x.isFinite = true) (h : ReadsBack x) :
    (Number.double x).Readable := by
  have hchars : (Number.double x).chars = (Decimal.ofDouble x).toList := if_pos hx
  rw [ReadsBack, bytes_eq_encoded] at h
  have htext := Decimal.isFractional_ofDouble x
  obtain ⟨hstarts, n, hgives, hn⟩ :=
    exists_gives_number (fun c hc => not_mem_spaces_of_isDecimal (htext.isDecimal c hc)) h
  obtain ⟨y, rfl⟩ := exists_double_of_gives_number htext hgives
  obtain rfl : x = y := hn
  refine ⟨hchars ▸ hstarts, fun {rest} hrest => ?_⟩
  rw [hchars]
  exact (steady_number _ _ hgives).2 rest fun _ => hrest

theorem Number.readable_whole {n : Nat} (hn : n ≤ significandLimit) :
    (Number.whole n).Readable := by
  have hchars : (Number.whole n).chars = Nat.toDigits 10 n := Nat.toList_repr
  rcases hdigits : Nat.toDigits 10 n with _ | ⟨c, later⟩
  · exact absurd hdigits Nat.toDigits_ne_nil
  · have hc : c.isDigit = true :=
      Nat.isDigit_of_mem_toDigits (by decide) (by decide) (hdigits ▸ List.mem_cons_self)
    have hbytes := encoded_cons_of_ascii (ascii_of_isDigit hc) later
    have hdigit := (digit_ofChar hc).1
    refine ⟨⟨_, _, by rw [hchars, hdigits, hbytes], .inr hdigit⟩, fun {rest} hrest => ?_⟩
    -- It begins with a digit and not with a sign.
    have hsign : (encoded (Nat.toDigits 10 n) ++ rest).head?.any (· = Byte.minus) = false := by
      have hne : Byte.ofChar c ≠ Byte.minus := fun e => absurd (e ▸ hdigit) (by decide)
      rw [hdigits, hbytes]
      simpa using hne
    rw [hchars, number, gives_nextIs_bind, hsign, if_neg (by decide)]
    exact gives_unsignedNumber hn hrest

/-- A number does not begin as `null` does. -/
theorem Number.Readable.head?_ne {n : Number} (h : n.Readable) :
    (encoded n.chars).head? ≠ some (Byte.ofChar 'n') := by
  obtain ⟨byte, later, hbytes, hbyte⟩ := h.starts
  simpa [hbytes] using hbyte.ne _ (by decide)

namespace Decoder

theorem reads_numberOf (expected : String) {n : Number} (h : n.Readable) :
    (numberOf expected).Reads n.chars n := by
  obtain ⟨byte, later, hbytes, hbyte⟩ := h.starts
  refine reads_peekValue_bind hbytes hbyte.beginsValue fun rest hrest => ?_
  rw [if_pos (Byte.beginsNumber_iff.1 hbyte), ← List.cons_append, ← hbytes]
  exact h.gives hrest

theorem reads_double (depth : Nat) {x : Float} (hx : x.isFinite = true) (h : ReadsBack x) :
    (Decoder.double depth).Reads (Number.double x).chars x :=
  (reads_numberOf "f64" (Number.readable_double hx h)).map Number.toDouble

/-- A number is read in double precision wherever it stands as it is read when it stands alone. -/
theorem reads_double_of_decode {text : List Char} {x : Float} (htext : ∀ c ∈ text, c ∉ spaces)
    (h : Decoder.double.decode (encoded text) = .ok x) (depth : Nat) :
    (Decoder.double depth).Reads text x := by
  obtain ⟨⟨byte, later, hbytes, hbyte⟩, n, hgives, rfl⟩ := exists_gives_number htext h
  have hnumber : (numberOf "f64").Reads text n := by
    refine reads_peekValue_bind hbytes hbyte.beginsValue fun rest hrest => ?_
    rw [if_pos (Byte.beginsNumber_iff.1 hbyte), ← List.cons_append, ← hbytes]
    exact (steady_number _ _ hgives).2 rest fun _ => hrest
  exact hnumber.map Number.toDouble

theorem readable_natural (n : UInt64) : (Number.whole n.toNat).Readable :=
  Number.readable_whole (Nat.le_of_lt_succ n.toNat_lt)

theorem reads_natural (expected : String) (depth : Nat) (n : UInt64) :
    (Decoder.natural expected depth).Reads (Number.whole n.toNat).chars n := by
  refine (reads_numberOf expected (readable_natural n)).bind ?_
  simp

end Decoder

end SchemaMatch.Json

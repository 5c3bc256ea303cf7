import Mathlib.Tactic.SplitIfs
import SchemaMatch.Json.Printer
import SchemaMatch.Json.Reader.Text
import SchemaMatch.Proofs.Json.Grammar
import SchemaMatch.Proofs.Json.Reading
import SchemaMatch.Proofs.Text.Utf8

/-!
# Strings are read as what they spell

A string is read in rounds, one for a plain byte or an escape (`Reader.stringRound`), which gather
the bytes of the string from its start. Reading a spelled character gathers the bytes of that
character, whether it was escaped or not (`Reader.gives_stringLoop_spells`), and so all that is
spelled is read, up to the closing quote: `Reader.gives_stringRest`. What is written of a text
spells it: `spells_written`.
-/

namespace SchemaMatch.Json

open Text

namespace Reader

variable {bytes rest taken plain gathered : List UInt8}

/-- One round of reading a string. -/
def stringRound (taken : List UInt8) (byte : UInt8) : Reader (List UInt8 ⊕ List UInt8) :=
  if byte = Byte.quote then return .inr taken.reverse
  else if byte = Byte.backslash then do
    let plain ← escape
    return .inl (plain.reverse ++ taken)
  else if byte < 0x20 then fail .controlCharacter .behind
  else return .inl (byte :: taken)

/-- The rounds of reading a string, after some bytes of it were gathered. -/
def stringLoop (taken : List UInt8) : Reader (List UInt8) :=
  loop stringRound (fun _ => .endInString) taken

theorem stringBytes_eq_stringLoop : stringBytes = stringLoop [] := rfl

/-- A quote ends a string. -/
theorem gives_stringLoop_quote :
    (stringLoop taken).Gives (Byte.quote :: bytes) gathered rest ↔
      gathered = taken.reverse ∧ rest = bytes := by
  simp [stringLoop, gives_loop_iff, stringRound]

/-- A byte that is neither a quote nor a backslash nor a control character is gathered as it is. -/
theorem gives_stringLoop_plain
    (hplain : ∀ b ∈ plain, 0x20 ≤ b ∧ b ≠ Byte.quote ∧ b ≠ Byte.backslash) :
    (stringLoop taken).Gives (plain ++ bytes) gathered rest ↔
      (stringLoop (plain.reverse ++ taken)).Gives bytes gathered rest := by
  induction plain generalizing taken with
  | nil => rfl
  | cons byte later ih =>
    obtain ⟨hcontrol, hquote, hbackslash⟩ := hplain byte (by simp)
    have hround : stringRound taken byte = pure (.inl (byte :: taken)) := by
      simp [stringRound, hquote, hbackslash, UInt8.not_lt.2 hcontrol]
    have hfirst : (stringLoop taken).Gives (byte :: (later ++ bytes)) gathered rest ↔
        (stringLoop (byte :: taken)).Gives (later ++ bytes) gathered rest := by
      rw [stringLoop, gives_loop_iff, hround]
      simp [stringLoop, and_assoc]
    rw [List.cons_append, hfirst, ih fun b hb => hplain b (List.mem_cons_of_mem _ hb)]
    simp

/-- An escape has the bytes gathered that it stands for. -/
theorem gives_stringLoop_backslash :
    (stringLoop taken).Gives (Byte.backslash :: bytes) gathered rest ↔
      ∃ plain left, escape.Gives bytes plain left ∧
        (stringLoop (plain.reverse ++ taken)).Gives left gathered rest := by
  have hround : stringRound taken Byte.backslash =
      (fun plain => .inl (plain.reverse ++ taken)) <$> escape := rfl
  rw [stringLoop, gives_loop_iff, hround]
  simp only [gives_map_iff, reduceCtorEq, and_false, exists_false, false_or, Sum.inl.injEq]
  constructor
  · rintro ⟨_, left, ⟨plain, hescape, rfl⟩, h⟩
    exact ⟨plain, left, hescape, h⟩
  · rintro ⟨plain, left, hescape, h⟩
    exact ⟨_, left, ⟨plain, hescape, rfl⟩, h⟩

theorem gives_stringLoop_escape {left : List UInt8} (hescape : escape.Gives bytes plain left)
    (h : (stringLoop (plain.reverse ++ taken)).Gives left gathered rest) :
    (stringLoop taken).Gives (Byte.backslash :: bytes) gathered rest :=
  gives_stringLoop_backslash.2 ⟨plain, left, hescape, h⟩

/-- No string goes on with a control character. -/
theorem not_gives_stringLoop_control {byte : UInt8} (h : byte < 0x20) :
    ¬(stringLoop taken).Gives (byte :: bytes) gathered rest := by
  have hquote : byte ≠ Byte.quote := fun e => absurd h (e ▸ by decide)
  have hbackslash : byte ≠ Byte.backslash := fun e => absurd h (e ▸ by decide)
  simp [stringLoop, gives_loop_iff, stringRound, hquote, hbackslash, h]

/-! ## Escapes -/

theorem gives_escape_simple {letter byte : UInt8} (h : simpleEscape? letter = some byte) :
    escape.Gives (letter :: rest) [byte] rest := by
  simp [escape, h]

theorem gives_escape_numbered (h : numberedEscape.Gives bytes plain rest) :
    escape.Gives (Byte.ofChar 'u' :: bytes) plain rest := by
  have hsimple : simpleEscape? (Byte.ofChar 'u') = none := by decide
  simpa [escape, hsimple] using h

theorem simpleEscape?_of_mem {l c : Char} (h : (l, c) ∈ letterEscapes) :
    l.toNat < 0x80 ∧ c.toNat < 0x80 ∧ simpleEscape? (Byte.ofChar l) = some (Byte.ofChar c) := by
  have hall : ∀ p ∈ letterEscapes, p.1.toNat < 0x80 ∧ p.2.toNat < 0x80 ∧
      simpleEscape? (Byte.ofChar p.1) = some (Byte.ofChar p.2) := by decide
  exact hall _ h

theorem hexDigit?_of_mem {c : Char} {n : Nat} (h : (c, n) ∈ hexDigits) :
    c.toNat < 0x80 ∧ hexDigit? (Byte.ofChar c) = some n := by
  have hall : ∀ p ∈ hexDigits, p.1.toNat < 0x80 ∧ hexDigit? (Byte.ofChar p.1) = some p.2 := by
    decide
  exact hall _ h

theorem gives_hexEscape {digits : List Char} {n : Nat} (h : Hex digits n) (rest : List UInt8) :
    hexEscape.Gives (encoded digits ++ rest) n rest := by
  obtain ⟨ha, hb, hc, hd⟩ := h
  obtain ⟨⟨hascii, ha⟩, ⟨hascii', hb⟩⟩ := And.intro (hexDigit?_of_mem ha) (hexDigit?_of_mem hb)
  obtain ⟨⟨hascii₂, hc⟩, ⟨hascii₃, hd⟩⟩ := And.intro (hexDigit?_of_mem hc) (hexDigit?_of_mem hd)
  rw [encoded_cons_of_ascii hascii, encoded_cons_of_ascii hascii', encoded_cons_of_ascii hascii₂,
    encoded_cons_of_ascii hascii₃]
  exact gives_hexEscape_iff.2 ⟨_, _, _, _, rfl, by simp [hexNumber?, ha, hb, hc, hd]⟩

theorem gives_numberedEscape {digits : List Char} {n : Nat} (h : Hex digits n)
    (hn : n.isValidChar) (rest : List UInt8) :
    numberedEscape.Gives (encoded digits ++ rest) (utf8Bytes n) rest := by
  refine gives_bind_iff.2 ⟨n, rest, gives_hexEscape h rest, ?_⟩
  have htrailing : isTrailingSurrogate n = false := by
    simp only [isTrailingSurrogate, decide_eq_false_iff_not]
    rcases hn with hn | hn <;> omega
  have hleading : isLeadingSurrogate n = false := by
    simp only [isLeadingSurrogate, decide_eq_false_iff_not]
    rcases hn with hn | hn <;> omega
  simp [htrailing, hleading]

theorem gives_surrogateMark (c : Char) (h : c.toNat < 0x80) (text : List Char)
    (rest : List UInt8) :
    (surrogateMark (Byte.ofChar c)).Gives (encoded (c :: text) ++ rest) ()
      (encoded text ++ rest) := by
  rw [encoded_cons_of_ascii h]
  simp [surrogateMark]

/-- The halves of a surrogate pair stand for one character. -/
theorem gives_numberedEscape_pair {first second : List Char} {n m : Nat}
    (hfirst : Hex first (0xD800 + n)) (hsecond : Hex second (0xDC00 + m)) (hn : n < 0x400)
    (hm : m < 0x400) (rest : List UInt8) :
    numberedEscape.Gives (encoded (first ++ '\\' :: 'u' :: second) ++ rest)
      (utf8Bytes (0x10000 + n * 0x400 + m)) rest := by
  have hnot : isTrailingSurrogate (0xD800 + n) = false := by
    simp only [isTrailingSurrogate, decide_eq_false_iff_not]
    omega
  have hleading : isLeadingSurrogate (0xD800 + n) = true := by
    simp only [isLeadingSurrogate, decide_eq_true_eq]
    omega
  have htrailing : isTrailingSurrogate (0xDC00 + m) = true := by
    simp only [isTrailingSurrogate, decide_eq_true_eq]
    omega
  have hnumber := gives_hexEscape hfirst (encoded ('\\' :: 'u' :: second) ++ rest)
  have hbackslash := gives_surrogateMark '\\' (by decide) ('u' :: second) rest
  have hletter := gives_surrogateMark 'u' (by decide) second rest
  rw [encoded_append, List.append_assoc]
  refine gives_bind_iff.2 ⟨_, _, hnumber, ?_⟩
  rw [hnot, if_neg (by decide), hleading, if_pos rfl]
  refine gives_bind_iff.2 ⟨(), _, hbackslash, gives_bind_iff.2 ⟨(), _, hletter, ?_⟩⟩
  refine gives_bind_iff.2 ⟨_, rest, gives_hexEscape hsecond rest, ?_⟩
  simp [htrailing]

/-- The bytes of a character that is written as it is stand for themselves. -/
theorem forall_plain_of_unescaped {c : Char} (h : Unescaped c) :
    ∀ b ∈ String.utf8EncodeChar c, 0x20 ≤ b ∧ b ≠ Byte.quote ∧ b ≠ Byte.backslash := by
  obtain ⟨hmark, hcontrol⟩ := h
  intro b hb
  rcases Nat.lt_or_ge c.toNat 0x80 with hascii | hbeyond
  · rw [utf8EncodeChar_of_ascii hascii, List.mem_singleton] at hb
    rw [not_or, ← ofChar_inj hascii (by decide), ← ofChar_inj hascii (by decide)] at hmark
    rw [hb, UInt8.le_iff_toNat_le, toNat_ofChar hascii]
    exact ⟨Nat.not_lt.1 hcontrol, hmark⟩
  · have hb := le_of_mem_utf8EncodeChar hbeyond hb
    exact ⟨UInt8.le_trans (by decide) hb, fun e => absurd hb (by rw [e]; decide),
      fun e => absurd hb (by rw [e]; decide)⟩

/-! ## Spelled strings -/

/-- A text has the bytes of the characters gathered that it spells. -/
theorem gives_stringLoop_spells {text spelled : List Char} (hspells : Spells text spelled)
    (h : (stringLoop ((encoded spelled).reverse ++ taken)).Gives bytes gathered rest) :
    (stringLoop taken).Gives (encoded text ++ bytes) gathered rest := by
  induction hspells generalizing taken with
  | nil => exact h
  | @plain c text spelled hc _ ih =>
    rw [encoded_cons, List.append_assoc, gives_stringLoop_plain (forall_plain_of_unescaped hc)]
    exact ih (by simpa [encoded_cons] using h)
  | @letter l c text spelled hletter _ ih =>
    obtain ⟨hl, hc, hsimple⟩ := simpleEscape?_of_mem hletter
    rw [encoded_cons_of_ascii (by decide), encoded_cons_of_ascii hl]
    refine gives_stringLoop_escape (gives_escape_simple hsimple) (ih ?_)
    simpa [encoded_cons_of_ascii hc] using h
  | @numbered digits text spelled n hdigits hn _ ih =>
    rw [encoded_cons_of_ascii (by decide), encoded_cons_of_ascii (by decide), encoded_append,
      List.cons_append, List.cons_append, List.append_assoc]
    have hnumbered := gives_numberedEscape hdigits hn (encoded text ++ bytes)
    refine gives_stringLoop_escape (gives_escape_numbered hnumbered) (ih ?_)
    simpa [encoded_cons, utf8Bytes] using h
  | @pair first second text spelled n m hfirst hsecond hn hm _ ih =>
    have htext : first ++ '\\' :: 'u' :: (second ++ text) =
        (first ++ '\\' :: 'u' :: second) ++ text := by simp
    rw [htext, encoded_cons_of_ascii (by decide), encoded_cons_of_ascii (by decide),
      encoded_append, List.cons_append, List.cons_append, List.append_assoc]
    have hpair := gives_numberedEscape_pair hfirst hsecond hn hm (encoded text ++ bytes)
    refine gives_stringLoop_escape (gives_escape_numbered hpair) (ih ?_)
    simpa [encoded_cons, utf8Bytes] using h

/-- A string is read as the text that it spells, from behind its opening quote on. -/
theorem gives_stringRest {text : List Char} {spelled : String} (h : Spells text spelled.toList)
    (rest : List UInt8) :
    stringRest.Gives (encoded (text ++ ['"']) ++ rest) spelled rest := by
  have hbytes : stringBytes.Gives (encoded (text ++ ['"']) ++ rest) (Text.bytes spelled) rest := by
    rw [bytes_eq_encoded, encoded_append, List.append_assoc, stringBytes_eq_stringLoop]
    refine gives_stringLoop_spells h (gives_stringLoop_quote.2 ⟨?_, rfl⟩)
    rw [List.append_nil, List.reverse_reverse]
  exact gives_bind_iff.2 ⟨_, _, hbytes, gives_asText_iff.2 ⟨ofBytes?_bytes spelled, rfl⟩⟩

end Reader

/-! ## Written strings -/

/-- The digits of a control character spell its code point. -/
theorem hex_controlDigits {c : Char} (h : c.toNat < 0x20) : Hex (controlDigits c) c.toNat := by
  have hall : ∀ n < 16, (Nat.digitChar n, n) ∈ hexDigits := by decide
  have hdigits := Hex.digits (hall 0 (by decide)) (hall 0 (by decide))
    (hall (c.toNat / 16) (by omega)) (hall (c.toNat % 16) (by omega))
  have hvalue : ((0 * 16 + 0) * 16 + c.toNat / 16) * 16 + c.toNat % 16 = c.toNat := by omega
  rwa [hvalue] at hdigits

/-- A written character is spelled, whether it is escaped or not. -/
theorem Spells.written {text spelled : List Char} (h : Spells text spelled) (c : Char) :
    Spells (escapedChar c ++ text) (c :: spelled) := by
  have hletter : ∀ l, (l, c) ∈ letterEscapes → Spells (['\\', l] ++ text) (c :: spelled) :=
    fun l hl => .letter hl h
  rw [escapedChar]
  split_ifs with hquote hb ht hn hf hr hcontrol
  · obtain rfl | rfl := hquote <;> exact hletter _ (by decide)
  · exact hletter 'b' (by rw [hb]; decide)
  · exact hletter 't' (by rw [ht]; decide)
  · exact hletter 'n' (by rw [hn]; decide)
  · exact hletter 'f' (by rw [hf]; decide)
  · exact hletter 'r' (by rw [hr]; decide)
  · -- No letter stands for the character, so it is escaped by its number.
    have hnumbered := Spells.numbered (hex_controlDigits hcontrol) (.inl (by omega)) h
    rwa [Char.ofNat_toNat] at hnumbered
  · exact .plain ⟨hquote, hcontrol⟩ h

/-- What is written of a text spells the text. -/
theorem spells_written (text : List Char) : Spells (text.flatMap escapedChar) text := by
  induction text with
  | nil => exact .nil
  | cons c later ih => exact ih.written c

end SchemaMatch.Json

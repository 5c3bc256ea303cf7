import SchemaMatch.Json.Record
import SchemaMatch.Proofs.Json.Strings

/-!
# Strings are cut out of texts

A string is gathered byte by byte, and only its gathered bytes are read as UTF-8. If it stands in a
text, they are UTF-8: `Reader.exists_ofBytes?_of_gives_stringBytes`. For where a byte of ASCII
stands in a text, a character ends (`Text.exists_encoded_of_append`). So a character begins behind
the opening quote of a string and behind each of its escapes (`Reader.exists_of_gives_escape`); all
other characters are gathered whole; and the closing quote is not a byte of another character.
-/

namespace SchemaMatch.Json

open Text

/-! ## What remains of a text -/

/-- Whether some bytes are what remains of a text from one of its bytes on, which need not be the
    first one of a character. -/
def Remains (bytes : List UInt8) : Prop :=
  ∃ text, bytes <:+ encoded text

theorem Remains.of_suffix {bytes rest : List UInt8} (h : Remains bytes) (hrest : rest <:+ bytes) :
    Remains rest := by
  obtain ⟨text, htext⟩ := h
  exact ⟨text, hrest.trans htext⟩

theorem Remains.exists_encoded {byte : UInt8} {rest : List UInt8} (h : Remains (byte :: rest))
    (hbyte : byte < 0x80) : ∃ later, rest = encoded later := by
  obtain ⟨text, front, htext⟩ := h
  obtain ⟨later, hrest, -⟩ := exists_encoded_of_append front htext.symm hbyte
  exact ⟨later, hrest⟩

namespace Reader

/-! ## Strings of a text -/

variable {text : List Char} {bytes rest taken plain value : List UInt8}

theorem lt_of_hexDigit? {b : UInt8} {n : Nat} (h : hexDigit? b = some n) : b < 0x80 := by
  rw [hexDigit?] at h
  split_ifs at h with hdigit hlower hupper
  · exact UInt8.lt_of_le_of_lt (of_decide_eq_true hdigit).2 (by decide)
  · exact UInt8.lt_of_le_of_lt hlower.2 (by decide)
  · exact UInt8.lt_of_le_of_lt hupper.2 (by decide)

/-- The digits of a numbered escape are characters of ASCII. -/
theorem exists_of_gives_hexEscape {n : Nat} (h : hexEscape.Gives (encoded text) n rest) :
    ∃ later, rest = encoded later ∧ later.length < text.length := by
  obtain ⟨a, b, c, d, hbytes, hnumber⟩ := gives_hexEscape_iff.1 h
  obtain ⟨digit, hdigit⟩ : ∃ digit, hexDigit? d = some digit := by
    simp only [hexNumber?, List.foldlM_cons, List.foldlM_nil, Option.bind_eq_bind,
      Option.bind_eq_some_iff, Option.map_eq_some_iff] at hnumber
    obtain ⟨_, -, _, -, _, -, _, ⟨digit, hdigit, -⟩, -⟩ := hnumber
    exact ⟨digit, hdigit⟩
  exact exists_encoded_of_append [a, b, c] hbytes (lt_of_hexDigit? hdigit)

theorem eq_cons_of_gives_surrogateMark {mark : UInt8} {u : Unit}
    (h : (surrogateMark mark).Gives bytes u rest) : bytes = mark :: rest := by
  cases bytes with
  | nil => simp [surrogateMark] at h
  | cons byte later =>
    by_cases hbyte : byte = mark
    · simp only [surrogateMark, gives_take_bind, List.head?_cons, List.tail_cons, hbyte] at h
      simp_all
    · simp [surrogateMark, hbyte] at h

theorem utf8Bytes_eq (code : Nat) : utf8Bytes code = encoded [Char.ofNat code] :=
  (encoded_singleton _).symm

theorem exists_of_gives_numberedEscape (h : numberedEscape.Gives (encoded text) plain rest) :
    (∃ c, plain = encoded [c]) ∧ ∃ later, rest = encoded later ∧ later.length < text.length := by
  obtain ⟨n, mid, hn, h⟩ := gives_bind_iff.1 h
  obtain ⟨middle, rfl, hmiddle⟩ := exists_of_gives_hexEscape hn
  split_ifs at h with htrailing hleading
  · exact absurd h not_gives_fail
  · obtain ⟨_, _, hbackslash, h⟩ := gives_bind_iff.1 h
    obtain ⟨_, _, hu, h⟩ := gives_bind_iff.1 h
    obtain ⟨m, last, hm, h⟩ := gives_bind_iff.1 h
    have hbackslash := eq_cons_of_gives_surrogateMark hbackslash
    obtain rfl := eq_cons_of_gives_surrogateMark hu
    obtain ⟨after, rfl, hafter⟩ :=
      exists_encoded_of_append [Byte.backslash] hbackslash (by decide)
    obtain ⟨later, rfl, hlater⟩ := exists_of_gives_hexEscape hm
    split_ifs at h
    · have hgiven := gives_pure_iff.1 h
      exact ⟨⟨_, hgiven.1.trans (utf8Bytes_eq _)⟩, later, hgiven.2, by omega⟩
    · exact absurd h not_gives_fail
  · have hgiven := gives_pure_iff.1 h
    exact ⟨⟨_, hgiven.1.trans (utf8Bytes_eq n)⟩, middle, hgiven.2, hmiddle⟩

theorem lt_of_simpleEscape? {b c : UInt8} (h : simpleEscape? b = some c) : b < 0x80 ∧ c < 0x80 := by
  rw [simpleEscape?] at h
  split_ifs at h with hmark
  · obtain rfl : b = c := Option.some.inj h
    rcases hmark with rfl | rfl | rfl <;> decide
  all_goals exact ⟨‹b = _› ▸ by decide, Option.some.inj h ▸ by decide⟩

/-- What an escape stands for is a character, and behind it the text goes on with another one. -/
theorem exists_of_gives_escape (h : escape.Gives (encoded text) plain rest) :
    (∃ c, plain = encoded [c]) ∧ ∃ later, rest = encoded later ∧ later.length < text.length := by
  cases hbytes : encoded text with
  | nil => simp [escape, hbytes] at h
  | cons byte last =>
    rw [hbytes, escape, gives_take_bind, List.head?_cons, List.tail_cons] at h
    have hlast : byte < 0x80 → ∃ later, last = encoded later ∧ later.length < text.length :=
      exists_encoded_of_append [] hbytes
    cases hsimple : simpleEscape? byte with
    | some c =>
      simp only [hsimple, gives_pure_iff] at h
      obtain ⟨rfl, rfl⟩ := h
      obtain ⟨hbyte, hc⟩ := lt_of_simpleEscape? hsimple
      exact ⟨exists_encoded_eq_singleton hc, hlast hbyte⟩
    | none =>
      simp only [hsimple] at h
      split_ifs at h with hu
      · obtain ⟨later, rfl, hlater⟩ := hlast (hu ▸ by decide)
        obtain ⟨hplain, after, hrest, hafter⟩ := exists_of_gives_numberedEscape h
        exact ⟨hplain, after, hrest, Nat.lt_trans hafter hlater⟩
      · exact absurd h not_gives_fail

/-- A string of a text is a text. -/
theorem exists_of_gives_stringLoop (gathered : List Char)
    (h : (stringLoop (encoded gathered).reverse).Gives (encoded text) value rest) :
    ∃ meant, value = encoded meant := by
  -- The induction is on what is left of the text, because an escape takes several characters.
  induction hlength : text.length using Nat.strongRecOn generalizing text gathered with
  | ind n ih =>
  subst hlength
  rcases text with _ | ⟨c, later⟩
  · exact absurd h not_gives_loop_nil
  by_cases hquote : c = '"'
  · rw [hquote, encoded_cons_of_ascii (by decide)] at h
    have hgathered := (gives_stringLoop_quote.1 h).1
    exact ⟨gathered, hgathered.trans (List.reverse_reverse _)⟩
  by_cases hbackslash : c = '\\'
  · rw [hbackslash, encoded_cons_of_ascii (by decide)] at h
    obtain ⟨_, _, hescape, h⟩ := gives_stringLoop_backslash.1 h
    obtain ⟨⟨meant, rfl⟩, after, rfl, hafter⟩ := exists_of_gives_escape hescape
    rw [← List.reverse_append, ← encoded_append] at h
    exact ih after.length (Nat.lt_succ_of_lt hafter) _ h rfl
  by_cases hcontrol : c.toNat < 0x20
  · have hascii : c.toNat < 0x80 := Nat.lt_trans hcontrol (by decide)
    have hbyte : Byte.ofChar c < 0x20 := by
      rw [UInt8.lt_iff_toNat_lt, toNat_ofChar hascii]
      exact hcontrol
    rw [encoded_cons_of_ascii hascii] at h
    exact absurd h (not_gives_stringLoop_control hbyte)
  -- All bytes of any other character are gathered one by one.
  have hplain := forall_plain_of_unescaped ⟨not_or.2 ⟨hquote, hbackslash⟩, hcontrol⟩
  rw [encoded_cons, gives_stringLoop_plain hplain, ← List.reverse_append, ← encoded_singleton,
    ← encoded_append] at h
  exact ih later.length (Nat.lt_succ_self _) _ h rfl

/-- Reading a string of a text, its bytes are never found not to be UTF-8. -/
theorem exists_ofBytes?_of_gives_stringBytes (h : stringBytes.Gives (encoded text) value rest) :
    ∃ meant, ofBytes? value = some meant := by
  obtain ⟨meant, rfl⟩ := exists_of_gives_stringLoop [] h
  exact ⟨String.ofList meant, by rw [← bytes_ofList, ofBytes?_bytes]⟩

end Reader

end SchemaMatch.Json

import SchemaMatch.Json.Reader.Basic
import SchemaMatch.Text.Utf8

/-!
# The bytes of characters

A text is written down as characters and read as bytes. Character by character (`Text.encoded`), the
bytes of a text can be told apart: a character of ASCII is one byte below `0x80`, and every byte of
any other character is at least `0x80`. So a byte that stands for a quote, a bracket or a control
character is never a part of another character.
-/

namespace SchemaMatch.Text

open Json

/-- The UTF-8 bytes of some characters. -/
def encoded (text : List Char) : List UInt8 :=
  text.flatMap String.utf8EncodeChar

@[simp] theorem encoded_nil : encoded [] = [] := rfl

@[simp] theorem encoded_append (text later : List Char) :
    encoded (text ++ later) = encoded text ++ encoded later :=
  List.flatMap_append

theorem encoded_cons (c : Char) (later : List Char) :
    encoded (c :: later) = String.utf8EncodeChar c ++ encoded later := rfl

@[simp] theorem encoded_singleton (c : Char) : encoded [c] = String.utf8EncodeChar c :=
  List.append_nil _

theorem bytes_ofList (text : List Char) : bytes (String.ofList text) = encoded text := by
  rw [bytes, String.toUTF8_eq_toByteArray, String.toByteArray_ofList, List.utf8Encode,
    List.data_toByteArray, encoded]

theorem bytes_eq_encoded (text : String) : bytes text = encoded text.toList := by
  rw [← bytes_ofList, String.ofList_toList]

/-- The bytes of a text are read as that text. -/
theorem ofBytes?_bytes (text : String) : ofBytes? (bytes text) = some text := by
  have hbytes : (bytes text).toByteArray = text.toByteArray := by
    rw [bytes, String.toUTF8_eq_toByteArray]
    exact ByteArray.ext List.data_toByteArray
  rw [ofBytes?, hbytes, String.fromUTF8?, dif_pos text.isValidUTF8]
  rfl

theorem toNat_ofChar {c : Char} (h : c.toNat < 0x80) : (Byte.ofChar c).toNat = c.toNat :=
  UInt8.toNat_ofNat_of_lt' (Nat.lt_trans h (by decide))

/-- Characters of ASCII are told apart by their bytes. -/
theorem ofChar_inj {c d : Char} (hc : c.toNat < 0x80) (hd : d.toNat < 0x80) :
    Byte.ofChar c = Byte.ofChar d ↔ c = d := by
  rw [← UInt8.toNat_inj, toNat_ofChar hc, toNat_ofChar hd, Char.toNat_inj]

/-- A character of ASCII is one byte. -/
theorem utf8EncodeChar_of_ascii {c : Char} (h : c.toNat < 0x80) :
    String.utf8EncodeChar c = [Byte.ofChar c] := by
  have hsize : c.utf8Size = 1 := by
    rw [Char.utf8Size_eq_one_iff, UInt32.le_iff_toNat_le]
    exact Nat.le_of_lt_succ h
  rw [String.utf8EncodeChar_eq_singleton hsize]
  rfl

/-- A text that begins with a character of ASCII begins with its byte. -/
theorem encoded_cons_of_ascii {c : Char} (h : c.toNat < 0x80) (later : List Char) :
    encoded (c :: later) = Byte.ofChar c :: encoded later := by
  rw [encoded_cons, utf8EncodeChar_of_ascii h, List.singleton_append]

theorem mem_encoded_of_mem {c : Char} (h : c.toNat < 0x80) {text : List Char} (hc : c ∈ text) :
    Byte.ofChar c ∈ encoded text :=
  List.mem_flatMap.2 ⟨c, hc, by simp [utf8EncodeChar_of_ascii h]⟩

/-- No byte of a character beyond ASCII is one of ASCII. -/
theorem le_of_mem_utf8EncodeChar {c : Char} (h : 0x80 ≤ c.toNat) {b : UInt8}
    (hb : b ∈ String.utf8EncodeChar c) : 0x80 ≤ b := by
  rw [UInt8.le_iff_toNat_le]
  revert hb
  fun_cases String.utf8EncodeChar c with
  | case1 v hv => exact absurd h (Nat.not_le.2 (Nat.lt_succ_of_le hv))
  | case2 v _ _ =>
    simp only [List.mem_cons, List.not_mem_nil, or_false]
    rintro (rfl | rfl) <;> simp <;> omega
  | case3 =>
    simp only [List.mem_cons, List.not_mem_nil, or_false]
    rintro (rfl | rfl | rfl) <;> simp <;> omega
  | case4 =>
    simp only [List.mem_cons, List.not_mem_nil, or_false]
    rintro (rfl | rfl | rfl | rfl) <;> simp <;> omega

/-- A byte of ASCII in a text is a character of its own, behind which the next one begins. -/
theorem exists_encoded_of_append (front : List UInt8) {text : List Char} {rest : List UInt8}
    {byte : UInt8} (h : encoded text = front ++ byte :: rest) (hbyte : byte < 0x80) :
    ∃ later, rest = encoded later ∧ later.length < text.length := by
  induction text generalizing front with
  | nil => exact absurd h (by simp)
  | cons c later ih =>
    have hlonger : ∀ front, encoded later = front ++ byte :: rest →
        ∃ text, rest = encoded text ∧ text.length < (c :: later).length := by
      intro front hlater
      obtain ⟨text, hrest, hlength⟩ := ih front hlater
      exact ⟨text, hrest, Nat.lt_succ_of_lt hlength⟩
    rw [encoded_cons] at h
    obtain ⟨mid, -, hmid⟩ | ⟨mid, hc, hmid⟩ := List.append_eq_append_iff.1 h
    · exact hlonger mid hmid
    · obtain ⟨-, hmid⟩ | ⟨last, rfl, rfl⟩ := List.cons_eq_append_iff.1 hmid
      · exact hlonger [] hmid
      · -- The byte belongs to the first character, which therefore has no other.
        have hascii : c.toNat < 0x80 := by
          refine Nat.lt_of_not_le fun hbeyond => ?_
          have hle := le_of_mem_utf8EncodeChar hbeyond (b := byte) (by simp [hc])
          exact absurd hbyte (UInt8.not_lt.2 hle)
        rw [utf8EncodeChar_of_ascii hascii] at hc
        obtain ⟨-, hlast⟩ : front = [] ∧ last = [] := by
          have hlength := congrArg List.length hc
          simp only [List.length_append, List.length_cons, List.length_nil] at hlength
          exact ⟨List.eq_nil_of_length_eq_zero (by omega), List.eq_nil_of_length_eq_zero (by omega)⟩
        exact ⟨later, by simp [hlast], by simp⟩

theorem exists_encoded_eq_singleton {b : UInt8} (h : b < 0x80) : ∃ c, [b] = encoded [c] := by
  have hnat : (Char.ofNat b.toNat).toNat = b.toNat := by
    have hall : ∀ n < 0x80, (Char.ofNat n).toNat = n := by decide
    exact hall b.toNat h
  refine ⟨Char.ofNat b.toNat, ?_⟩
  rw [encoded_singleton, utf8EncodeChar_of_ascii (by rw [hnat]; exact h), Byte.ofChar, hnat]
  simp

end SchemaMatch.Text

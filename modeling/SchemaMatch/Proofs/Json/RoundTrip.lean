import SchemaMatch.Proofs.Json.Collections

/-!
# Values are read as they were written

Every form of a value is read as this value (`Value.Readable.reads`), if it opens no more levels
than a text may open and its numbers are read as they were written (`Value.Readable`). Nothing is
asked of strings and names: they may be any text, and names may be repeated.
-/

namespace SchemaMatch.Json

open Text Reader

/-- Whether a value opens no more than a number of levels, and its numbers are read as they were
    written. -/
inductive Value.Readable : (levels : Nat) → Value → Prop
  | null {levels : Nat} : Readable levels .null
  | bool {levels : Nat} (b : Bool) : Readable levels (.bool b)
  | number {levels : Nat} {n : Number} : n.Readable → Readable levels (.number n)
  | string {levels : Nat} (s : String) : Readable levels (.string s)
  | array {levels : Nat} {items : List Value} :
    (∀ item ∈ items, Readable levels item) → Readable (levels + 1) (.array items)
  | object {levels : Nat} {members : List (String × Value)} :
    (∀ entry ∈ members, Readable levels entry.2) → Readable (levels + 1) (.object members)

section Words

variable {array object : Reader Value}

/-- A word is read as the value that its first letter tells. -/
theorem reads_word {first : Char} {later : List Char} {value : Value}
    {next : UInt8 → Reader Value}
    (hnext : next (Byte.ofChar first) = take >>= fun _ => word later >>= fun _ => pure value)
    (hfirst : Byte.BeginsValue (Byte.ofChar first)) (h : ∀ c ∈ first :: later, c.toNat < 0x80) :
    (peekValue >>= next).Reads (first :: later) value := by
  refine reads_peekValue_bind (encoded_cons_of_ascii (h first (by simp)) _) hfirst fun rest _ => ?_
  have hlater := gives_word (fun c hc => h c (List.mem_cons_of_mem _ hc)) rest
  rw [hnext, gives_take_bind]
  exact gives_bind_iff.2 ⟨(), rest, hlater, by simp⟩

theorem reads_valueWith_null : (valueWith array object).Reads ['n', 'u', 'l', 'l'] .null :=
  reads_word (if_pos (by decide)) (by decide) (by simp)

theorem reads_valueWith_true :
    (valueWith array object).Reads ['t', 'r', 'u', 'e'] (.bool true) := by
  refine reads_word ?_ (by decide) (by simp)
  rw [if_neg (by decide), if_pos (by decide)]

theorem reads_valueWith_false :
    (valueWith array object).Reads ['f', 'a', 'l', 's', 'e'] (.bool false) := by
  refine reads_word ?_ (by decide) (by simp)
  rw [if_neg (by decide), if_neg (by decide), if_pos (by decide)]

theorem reads_valueWith_number {n : Number} (h : n.Readable) :
    (valueWith array object).Reads n.chars (.number n) := by
  obtain ⟨byte, later, hbytes, hbyte⟩ := h.starts
  refine reads_peekValue_bind hbytes hbyte.beginsValue fun rest hrest => ?_
  rw [if_neg (hbyte.ne _ (by decide)), if_neg (hbyte.ne _ (by decide)),
    if_neg (hbyte.ne _ (by decide)), if_pos (Byte.beginsNumber_iff.1 hbyte)]
  rw [← List.cons_append, ← hbytes]
  exact gives_map_iff.2 ⟨n, h.gives hrest, rfl⟩

theorem reads_valueWith_string (s : String) :
    (valueWith array object).Reads (stringChars s) (.string s) := by
  refine reads_peekValue_bind (encoded_cons_of_ascii (by decide) _) (by decide) fun rest _ => ?_
  rw [if_neg (by decide), if_neg (by decide), if_neg (by decide), if_neg (by decide),
    if_pos (by decide), gives_take_bind]
  exact gives_map_iff.2 ⟨s, gives_stringRest (spells_written _) rest, rfl⟩

end Words

/-! ## Values -/

theorem exists_eq_valueWith (levels : Nat) :
    ∃ array object, Decoder.value levels = valueWith array object := by
  cases levels <;> exact ⟨_, _, rfl⟩

variable {form : Spacing} {levels : Nat} {value : Value}

/-- The members of an object are read one after the other if their values are read. -/
theorem gathers_memberChars (h : form.Blank) {reader : Reader Value} {depth : Nat}
    {members : List (String × Value)}
    (hvalues : ∀ entry ∈ members, reader.Reads (entry.2.chars form depth) entry.2)
    (taken : List (String × Value)) :
    Gathers (memberEntry (valueMember reader)) taken (memberChars form depth members)
      (members.reverse ++ taken) := by
  rw [memberChars_eq_map]
  induction members generalizing taken with
  | nil => exact .nil
  | cons entry later ih =>
    have hentry := (hvalues entry (by simp)).map fun value => (entry.1, value) :: taken
    have hlater := ih (fun entry h => hvalues entry (List.mem_cons_of_mem _ h)) (entry :: taken)
    rw [List.reverse_cons, List.append_assoc]
    exact .cons (reads_memberEntry_written h rfl hentry) hlater

/-- A value is read from what is written of it in any form. -/
theorem Value.Readable.reads (h : form.Blank) (hvalue : value.Readable levels) (depth : Nat) :
    (Decoder.value levels).Reads (value.chars form depth) value := by
  induction hvalue generalizing depth with
  | @null levels =>
    obtain ⟨array, object, hlevels⟩ := exists_eq_valueWith levels
    exact hlevels ▸ reads_valueWith_null
  | @bool levels b =>
    obtain ⟨array, object, hlevels⟩ := exists_eq_valueWith levels
    cases b with
    | true => exact hlevels ▸ reads_valueWith_true
    | false => exact hlevels ▸ reads_valueWith_false
  | @number levels n hn =>
    obtain ⟨array, object, hlevels⟩ := exists_eq_valueWith levels
    exact hlevels ▸ reads_valueWith_number hn
  | @string levels s =>
    obtain ⟨array, object, hlevels⟩ := exists_eq_valueWith levels
    exact hlevels ▸ reads_valueWith_string s
  | @array levels items _ ih =>
    have hparts : List.Forall₂ (Decoder.value levels).Reads (itemChars form (depth + 1) items)
        items := by
      rw [itemChars_eq_map, List.forall₂_map_left_iff, List.forall₂_same]
      exact fun item hitem => ih item hitem _
    rw [Value.chars, Spacing.enclose_eq]
    refine reads_bracket (.inl rfl) ?_
      fun rest => gives_map_iff.2 ⟨items, gives_items hparts (h.inside _ _ _) rest, rfl⟩
    rw [if_neg (by decide), if_neg (by decide), if_neg (by decide), if_neg (by decide),
      if_neg (by decide), if_pos (by decide)]
    rfl
  | @object levels members _ ih =>
    have hparts := gathers_memberChars h (fun entry hentry => ih entry hentry (depth + 1)) []
    have hcontent : ∀ rest, ((Value.object ∘ List.reverse) <$>
        Reader.members (valueMember (Decoder.value levels)) []).Gives
          (encoded (form.inside depth '\x7d' (memberChars form (depth + 1) members)) ++ rest)
          (.object members) rest :=
      fun rest => gives_map_iff.2 ⟨_, gives_members hparts (h.inside _ _ _) rest, by simp⟩
    rw [Value.chars, Spacing.enclose_eq]
    refine reads_bracket (.inr rfl) ?_ hcontent
    rw [if_neg (by decide), if_neg (by decide), if_neg (by decide), if_neg (by decide),
      if_neg (by decide), if_neg (by decide), if_pos (by decide)]
    rfl

/-- Any form of a value is decoded as this value. -/
theorem Value.Readable.decode (h : form.Blank) (hvalue : value.Readable depthLimit) :
    Decoder.value.decode (Text.bytes (String.ofList (value.chars form 0))) = .ok value := by
  rw [bytes_ofList]
  exact Decoder.decode_encoded (hvalue.reads h 0)

end SchemaMatch.Json

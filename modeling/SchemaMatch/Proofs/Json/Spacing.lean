import Mathlib.Data.List.Forall2
import SchemaMatch.Proofs.Json.Spelling

/-!
# White space between values

The forms in which a value is written differ in white space only (`Spacing.Blank`), and only in what
stands outside of strings. A scan that knows whether it is inside of a string (`unspaced`) leaves
the same of every form, which is the compact one: `Value.unspaces_chars`.
-/

namespace SchemaMatch.Json

/-! ## Forms -/

/-- Whether a form differs from others in white space only. -/
structure Spacing.Blank (form : Spacing) : Prop where
  line : ∀ depth, Gap (form.line depth)
  colon : ∃ gap, form.colon = ':' :: gap ∧ Gap gap

theorem blank_compact : compact.Blank :=
  ⟨fun _ => gap_nil, [], rfl, gap_nil⟩

theorem blank_indented : indented.Blank where
  line depth c hc := by
    rcases List.mem_cons.1 hc with rfl | hc
    · decide
    · rw [List.eq_of_mem_replicate hc]
      decide
  colon := ⟨[' '], rfl, by simp [Gap, spaces]⟩

/-- What follows the first of the parts between two brackets. -/
def Spacing.continued (form : Spacing) (depth : Nat) (closing : Char)
    (parts : List (List Char)) : List Char :=
  (parts.flatMap fun part => ',' :: form.line (depth + 1) ++ part) ++ form.line depth ++ [closing]

/-- What follows the opening bracket of some parts. -/
def Spacing.inside (form : Spacing) (depth : Nat) (closing : Char) : List (List Char) → List Char
  | [] => [closing]
  | part :: later => form.line (depth + 1) ++ part ++ form.continued depth closing later

theorem Spacing.enclose_eq (form : Spacing) (depth : Nat) (opening closing : Char)
    (parts : List (List Char)) :
    form.enclose depth opening closing parts = opening :: form.inside depth closing parts := by
  have hparts : ∀ (separator part : List Char) (later : List (List Char)),
      separator.intercalate (part :: later) = part ++ later.flatMap (separator ++ ·) := by
    intro separator part later
    induction later generalizing part with
    | nil => simp
    | cons next later ih => simp [List.intercalate_cons_cons, ih]
  cases parts with
  | nil => rfl
  | cons part later => simp [enclose, inside, continued, hparts]

/-- In a form, some parts are written with white space around them. -/
theorem Spacing.Blank.continued {form : Spacing} (h : form.Blank) (depth : Nat) (closing : Char)
    (parts : List (List Char)) : Continued closing parts (form.continued depth closing parts) := by
  induction parts with
  | nil => exact .nil (h.line depth)
  | cons part later ih =>
    have hcontinued : Continued closing (part :: later) _ := .cons gap_nil (h.line (depth + 1)) ih
    simpa [Spacing.continued] using hcontinued

theorem Spacing.Blank.inside {form : Spacing} (h : form.Blank) (depth : Nat) (closing : Char)
    (parts : List (List Char)) : Inside closing parts (form.inside depth closing parts) := by
  cases parts with
  | nil => exact .nil gap_nil
  | cons part later =>
    rw [Spacing.inside, List.append_assoc]
    exact .cons (h.line (depth + 1)) (h.continued depth closing later)

theorem itemChars_eq_map (form : Spacing) (depth : Nat) (items : List Value) :
    itemChars form depth items = items.map (·.chars form depth) := by
  induction items with
  | nil => rfl
  | cons item later ih => rw [itemChars, ih, List.map_cons]

/-- The characters of a member, given those of its value. -/
def Spacing.member (form : Spacing) (key : String) (value : List Char) : List Char :=
  stringChars key ++ form.colon ++ value

/-- A written member has no white space in front of its colon. -/
theorem Spacing.Blank.exists_memberText {form : Spacing} (h : form.Blank) (key : String)
    (value : List Char) :
    ∃ m : MemberText, form.member key value = m.chars ∧ m.Spaced ∧ Spells m.name key.toList ∧
      m.value = value := by
  obtain ⟨gap, hcolon, hgap⟩ := h.colon
  refine ⟨⟨key.toList.flatMap escapedChar, [], gap, value⟩, ?_, ⟨gap_nil, hgap⟩,
    spells_written _, rfl⟩
  simp [Spacing.member, stringChars, hcolon, MemberText.chars]

theorem memberChars_eq_map (form : Spacing) (depth : Nat) (members : List (String × Value)) :
    memberChars form depth members =
      members.map fun entry => form.member entry.1 (entry.2.chars form depth) := by
  induction members with
  | nil => rfl
  | cons entry later ih => rw [memberChars, ih, List.map_cons, Spacing.member]

/-! ## Scanning -/

/-- Where a scan of a text is. -/
inductive Place
  | outside
  /-- Inside of a string. -/
  | inside
  /-- Behind a backslash inside of a string. -/
  | escaped

/-- What is left of a text, scanned from a place on, without the white space outside of strings. -/
def unspacedFrom : Place → List Char → List Char
  | _, [] => []
  | .outside, c :: later =>
    if c = '"' then c :: unspacedFrom .inside later
    else if c ∈ spaces then unspacedFrom .outside later
    else c :: unspacedFrom .outside later
  | .inside, c :: later =>
    if c = '"' then c :: unspacedFrom .outside later
    else if c = '\\' then c :: unspacedFrom .escaped later
    else c :: unspacedFrom .inside later
  | .escaped, c :: later => c :: unspacedFrom .inside later

/-- What is left of a text without the white space outside of strings. -/
def unspaced (text : List Char) : List Char :=
  unspacedFrom .outside text

/-- Whether a text with no string left open has a bare text left of it, whatever follows. -/
def Unspaces (text bare : List Char) : Prop :=
  ∀ later, unspaced (text ++ later) = bare ++ unspaced later

theorem Unspaces.unspaced_eq {text bare : List Char} (h : Unspaces text bare) :
    unspaced text = bare := by
  simpa [unspaced, unspacedFrom] using h []

theorem Unspaces.append {text bare text' bare' : List Char} (h : Unspaces text bare)
    (h' : Unspaces text' bare') : Unspaces (text ++ text') (bare ++ bare') := by
  intro later
  rw [List.append_assoc, h, h', List.append_assoc]

theorem unspaces_spaces {text : List Char} (h : Gap text) : Unspaces text [] := by
  intro rest
  induction text with
  | nil => rfl
  | cons c later ih =>
    have hc := h c (by simp)
    have hquote : c ≠ '"' := fun e => absurd (e ▸ hc) (by decide)
    rw [List.cons_append, unspaced, unspacedFrom, if_neg hquote, if_pos hc]
    exact ih fun d hd => h d (List.mem_cons_of_mem _ hd)

/-- Characters that are neither quotes nor white space are left. -/
theorem unspaces_plain {text : List Char} (h : ∀ c ∈ text, c ≠ '"' ∧ c ∉ spaces) :
    Unspaces text text := by
  intro rest
  induction text with
  | nil => rfl
  | cons c later ih =>
    obtain ⟨hquote, hspace⟩ := h c (by simp)
    rw [List.cons_append, unspaced, unspacedFrom, if_neg hquote, if_neg hspace]
    exact congrArg (c :: ·) (ih fun d hd => h d (List.mem_cons_of_mem _ hd))

/-! ## Strings -/

/-- A scan stays inside of a string over characters that are neither quotes nor backslashes. -/
theorem unspacedFrom_plain {text : List Char} (h : ∀ c ∈ text, c ≠ '"' ∧ c ≠ '\\')
    (rest : List Char) :
    unspacedFrom .inside (text ++ rest) = text ++ unspacedFrom .inside rest := by
  induction text with
  | nil => rfl
  | cons c later ih =>
    obtain ⟨hquote, hbackslash⟩ := h c (by simp)
    rw [List.cons_append, unspacedFrom, if_neg hquote, if_neg hbackslash,
      ih fun d hd => h d (List.mem_cons_of_mem _ hd), List.cons_append]

/-- A scan stays inside of a string over every written character. -/
theorem unspacedFrom_escapedChar (c : Char) (rest : List Char) :
    unspacedFrom .inside (escapedChar c ++ rest) = escapedChar c ++ unspacedFrom .inside rest := by
  rw [escapedChar]
  split_ifs with hmark hb ht hn hf hr hcontrol
  any_goals rfl
  · have hall : ∀ n < 0x20,
        (controlDigits (Char.ofNat n)).all fun d => d ≠ '"' ∧ d ≠ '\\' := by decide
    have hdigits : ∀ d ∈ controlDigits c, d ≠ '"' ∧ d ≠ '\\' := by
      simpa using hall c.toNat hcontrol
    -- Behind the backslash the scan goes over the letter, whatever it is.
    exact congrArg ('\\' :: 'u' :: ·) (unspacedFrom_plain hdigits rest)
  · exact @unspacedFrom_plain [c] (by simpa using not_or.1 hmark) rest

theorem unspaces_stringChars (text : String) : Unspaces (stringChars text) (stringChars text) := by
  intro later
  have htext : ∀ chars : List Char,
      unspacedFrom .inside (chars.flatMap escapedChar ++ '"' :: later) =
        chars.flatMap escapedChar ++ '"' :: unspaced later := by
    intro chars
    induction chars with
    | nil => rfl
    | cons c chars ih =>
      rw [List.flatMap_cons, List.append_assoc, unspacedFrom_escapedChar, ih, List.append_assoc]
  simpa [stringChars, unspaced, unspacedFrom] using htext text.toList

/-! ## Numbers -/

theorem plain_of_isDecimal {c : Char} (h : Decimal.IsDecimal c) : c ≠ '"' ∧ c ∉ spaces := by
  refine ⟨?_, not_mem_spaces_of_isDecimal h⟩
  rintro rfl
  simp [Decimal.IsDecimal] at h

theorem isDecimal_of_mem_toString {n : Int} {c : Char} (h : c ∈ (toString n).toList) :
    Decimal.IsDecimal c := by
  cases n with
  | ofNat m => exact Decimal.isDecimal_of_mem_repr h
  | negSucc m =>
    have hsign : toString (Int.negSucc m) = "-" ++ Nat.repr (m + 1) := rfl
    rw [hsign, String.toList_append] at h
    rcases List.mem_append.1 h with h | h
    · exact .inr (.inr (.inr (.inr (by simpa using h))))
    · exact Decimal.isDecimal_of_mem_repr h

theorem unspaces_numberChars (n : Number) : Unspaces n.chars n.chars := by
  have hnull : Unspaces "null".toList "null".toList := unspaces_plain (by simp [spaces])
  have hdecimal : ∀ {text : List Char}, (∀ c ∈ text, Decimal.IsDecimal c) → Unspaces text text :=
    fun h => unspaces_plain fun c hc => plain_of_isDecimal (h c hc)
  cases n with
  | whole n => exact hdecimal fun c => isDecimal_of_mem_toString
  | double x =>
    rw [Number.chars]
    split
    · exact hdecimal (Decimal.isFractional_ofDouble x).isDecimal
    · exact hnull
  | single x =>
    rw [Number.chars]
    split
    · exact hdecimal (Decimal.isFractional_ofSingle x).isDecimal
    · exact hnull

/-! ## Values -/

variable {form : Spacing}

theorem unspaces_colon (h : form.Blank) : Unspaces form.colon compact.colon := by
  obtain ⟨gap, hcolon, hgap⟩ := h.colon
  have hmark : Unspaces [':'] [':'] := unspaces_plain (by simp [spaces])
  rw [hcolon]
  exact hmark.append (unspaces_spaces hgap)

theorem unspaces_line (h : form.Blank) (depth : Nat) : Unspaces (form.line depth) [] :=
  unspaces_spaces (h.line depth)

/-- Between two brackets, what is left is what is left of the parts. -/
theorem unspaces_enclose (h : form.Blank) {depth : Nat} {opening closing : Char}
    {parts bare : List (List Char)}
    (hbrackets : ∀ c ∈ [opening, closing], c ≠ '"' ∧ c ∉ spaces)
    (hparts : List.Forall₂ Unspaces parts bare) :
    Unspaces (form.enclose depth opening closing parts)
      (compact.enclose depth opening closing bare) := by
  have hopening : Unspaces [opening] [opening] :=
    unspaces_plain fun c hc => hbrackets c (by simp_all)
  have hclosing : Unspaces [closing] [closing] :=
    unspaces_plain fun c hc => hbrackets c (by simp_all)
  have hcomma : Unspaces [','] [','] := unspaces_plain (by simp [spaces])
  have hline := unspaces_line h
  rw [Spacing.enclose_eq, Spacing.enclose_eq]
  refine hopening.append ?_
  cases hparts with
  | nil => exact hclosing
  | @cons part bare later bares hpart hlater =>
    have hcontinued : Unspaces (form.continued depth closing later)
        (compact.continued depth closing bares) := by
      refine .append (.append ?_ (hline depth)) hclosing
      induction hlater with
      | nil => exact fun _ => rfl
      | cons hpart _ ih => exact .append ((hcomma.append (hline _)).append hpart) ih
    exact ((hline _).append hpart).append hcontinued

mutual

/-- Of the characters of a value in any form, those of the compact form are left. -/
theorem Value.unspaces_chars (h : form.Blank) (depth : Nat) :
    ∀ value : Value, Unspaces (value.chars form depth) (value.chars compact depth)
  | .null => @unspaces_plain "null".toList (by simp [spaces])
  | .bool true => @unspaces_plain "true".toList (by simp [spaces])
  | .bool false => @unspaces_plain "false".toList (by simp [spaces])
  | .number n => unspaces_numberChars n
  | .string s => unspaces_stringChars s
  | .array items => unspaces_enclose h (by simp [spaces]) (unspaces_itemChars h (depth + 1) items)
  | .object members =>
    unspaces_enclose h (by simp [spaces]) (unspaces_memberChars h (depth + 1) members)

theorem unspaces_itemChars (h : form.Blank) (depth : Nat) :
    ∀ items : List Value,
      List.Forall₂ Unspaces (itemChars form depth items) (itemChars compact depth items)
  | [] => .nil
  | item :: later => .cons (item.unspaces_chars h depth) (unspaces_itemChars h depth later)

theorem unspaces_memberChars (h : form.Blank) (depth : Nat) :
    ∀ members : List (String × Value),
      List.Forall₂ Unspaces (memberChars form depth members) (memberChars compact depth members)
  | [] => .nil
  | (key, value) :: later =>
    .cons (((unspaces_stringChars key).append (unspaces_colon h)).append
        (value.unspaces_chars h depth))
      (unspaces_memberChars h depth later)

end

/-- Every form of a value is the compact one, once the white space outside of strings is gone. -/
theorem Value.unspaced_chars (h : form.Blank) (value : Value) :
    unspaced (value.chars form 0) = value.compact.toList := by
  rw [Value.compact, String.toList_ofList]
  exact (value.unspaces_chars h 0).unspaced_eq

end SchemaMatch.Json

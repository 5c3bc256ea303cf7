import SchemaMatch.Json.Record
import SchemaMatch.Proofs.Json.Spacing

/-!
# Arrays, objects and records that readers read

Arrays and objects are read in rounds that differ only in what one entry is and in the closing
bracket (`Reader.Rounds`). If the entries of a text are read one after the other, each from the
state that the one before it left (`Reader.Gathers`), then the rounds over the text end in the last
state, whatever white space stands between the entries: `Rounds.gives_continued`. What is read from
an array, from the members of an object and from the fields of a record are instances of this.
-/

namespace SchemaMatch.Json

open Text

namespace Reader

variable {α σ : Type}

/-! ## Rounds -/

/-- Whether some rounds read the entries of an array or an object: white space makes no difference,
    the closing bracket ends them with a result, and behind a comma is an entry. -/
structure Rounds (round : σ → UInt8 → Reader (σ ⊕ α)) (closing : Char) (result : σ → α)
    (entry : σ → Reader σ) : Prop where
  bracket : closing = ']' ∨ closing = '\x7d'
  blank : ∀ state byte, Byte.isBlank byte = true → round state byte = pure (.inl state)
  close : ∀ state, round state (Byte.ofChar closing) = pure (.inr (result state))
  comma : ∀ {state state' bytes rest}, Starts (afterBlanks bytes) →
    (entry state).Gives (afterBlanks bytes) state' rest →
    (round state Byte.comma).Gives bytes (.inl state') rest

/-- Whether the entries of a text are read one after the other, from a state on to another. -/
inductive Gathers (entry : σ → Reader σ) : σ → List (List Char) → σ → Prop
  | nil {state : σ} : Gathers entry state [] state
  | cons {state mid final : σ} {part : List Char} {later : List (List Char)} :
    (entry state).Reads part mid → Gathers entry mid later final →
    Gathers entry state (part :: later) final

variable {parts : List (List Char)} {text : List Char} {state final : σ}

/-- White space in front of a part makes no difference. -/
theorem Reads.afterBlanks_gap {reader : Reader α} {part : List Char} {value : α}
    (hpart : reader.Reads part value) {gap : List Char} (h : Gap gap) (text : List Char)
    (rest : List UInt8) :
    afterBlanks (encoded (gap ++ (part ++ text)) ++ rest) =
      encoded part ++ (encoded text ++ rest) := by
  rw [encoded_append, encoded_append, List.append_assoc, List.append_assoc,
    afterBlanks_encoded_append h, (hpart.starts.append _).afterBlanks_eq]

section Rounds

variable {round : σ → UInt8 → Reader (σ ⊕ α)} {closing : Char} {result : σ → α}
  {entry : σ → Reader σ} {atEnd : σ → Reason}

theorem Rounds.closing_spec (hround : Rounds round closing result entry) :
    closing.toNat < 0x80 ∧ Byte.isNumeral (Byte.ofChar closing) = false := by
  obtain h | h := hround.bracket <;> rw [h] <;> decide

/-- Behind an entry, no number goes on. -/
theorem ends_continued (hclosing : closing = ']' ∨ closing = '\x7d')
    (h : Continued closing parts text) (rest : List UInt8) : Ends (encoded text ++ rest) := by
  cases h with
  | nil hgap =>
    rw [encoded_append, List.append_assoc]
    obtain rfl | rfl := hclosing <;>
      exact hgap.ends (ends_encoded_cons (by decide) (by decide) [] rest)
  | cons hgap _ _ =>
    rw [encoded_append, List.append_assoc]
    exact hgap.ends (ends_encoded_cons (by decide) (by decide) _ rest)

/-- White space makes no difference to a loop if it makes none to a round. -/
theorem gives_loop_iff_afterBlanks
    (hblank : ∀ state byte, Byte.isBlank byte = true → round state byte = pure (.inl state))
    {bytes rest : List UInt8} {value : α} :
    (loop round atEnd state).Gives bytes value rest ↔
      (loop round atEnd state).Gives (afterBlanks bytes) value rest := by
  induction bytes with
  | nil => rfl
  | cons byte later ih =>
    rw [afterBlanks_cons]
    split
    · next hbyte =>
      rw [gives_loop_iff, hblank state byte hbyte, ← ih]
      simp [and_assoc]
    · rfl

theorem gives_loop_gap
    (hblank : ∀ state byte, Byte.isBlank byte = true → round state byte = pure (.inl state))
    {gap : List Char} (hgap : Gap gap) {bytes rest : List UInt8} {value : α} :
    (loop round atEnd state).Gives (encoded gap ++ bytes) value rest ↔
      (loop round atEnd state).Gives bytes value rest := by
  rw [gives_loop_iff_afterBlanks hblank, afterBlanks_encoded_append hgap,
    ← gives_loop_iff_afterBlanks hblank]

/-- The rounds read what follows an entry, up to and with the closing bracket. -/
theorem Rounds.gives_continued (hround : Rounds round closing result entry)
    (hparts : Gathers entry state parts final) (h : Continued closing parts text)
    (rest : List UInt8) :
    (loop round atEnd state).Gives (encoded text ++ rest) (result final) rest := by
  induction h generalizing state with
  | nil hgap =>
    cases hparts
    have hclose : (loop round atEnd final).Gives (Byte.ofChar closing :: rest)
        (result final) rest := gives_loop_iff.2 (.inl (by simp [hround.close]))
    rw [encoded_append, List.append_assoc, encoded_cons_of_ascii hround.closing_spec.1]
    exact (gives_loop_gap hround.blank hgap).2 hclose
  | @cons gap gap' part text later hgap hgap' hlater ih =>
    cases hparts with | cons hpart hparts =>
    have hafter := hpart.afterBlanks_gap hgap' text rest
    rw [encoded_append, List.append_assoc, encoded_cons_of_ascii (by decide), List.cons_append]
    rw [gives_loop_gap hround.blank hgap, gives_loop_iff]
    refine .inr ⟨_, _, hround.comma ?_ ?_, ih hparts⟩
    · rw [hafter]
      exact hpart.starts.append _
    · rw [hafter]
      exact hpart.gives_encoded (ends_continued hround.bracket hlater rest)

end Rounds

/-! ## Arrays -/

theorem rounds_items (item : Reader α) :
    Rounds (itemRound item) ']' List.reverse fun taken => (· :: taken) <$> item where
  bracket := .inl rfl
  blank state byte h := by simp [itemRound, h]
  close state := rfl
  comma := by
    rintro state state' bytes rest ⟨byte, later, hafter, -, hbracket, -⟩ h
    obtain ⟨value, hvalue, rfl⟩ := gives_map_iff.1 h
    rw [hafter] at hvalue
    rw [itemRound, if_neg (by decide), if_neg (by decide), if_pos rfl, gives_blanks_bind,
      gives_peek_bind, hafter]
    simpa [hbracket] using hvalue

theorem Gathers.of_forall {item : Reader α} {values : List α}
    (h : List.Forall₂ item.Reads parts values) (taken : List α) :
    Gathers (fun taken => (· :: taken) <$> item) taken parts (values.reverse ++ taken) := by
  induction h generalizing taken with
  | nil => exact .nil
  | cons hpart _ ih => exact .cons (hpart.map _) (by simpa using ih _)

/-- Nothing but the closing bracket is left of an array or an object without parts. -/
theorem afterBlanks_closing {gap : List Char} (h : Gap gap) {closing : Char}
    (hclosing : closing = ']' ∨ closing = '\x7d') (rest : List UInt8) :
    afterBlanks (encoded (gap ++ [closing]) ++ rest) = Byte.ofChar closing :: rest := by
  rw [encoded_append, List.append_assoc, afterBlanks_encoded_append h]
  obtain rfl | rfl := hclosing <;> rfl

theorem gives_nextItem_closing {bytes rest : List UInt8} (first : Bool)
    (h : afterBlanks bytes = Byte.closeBracket :: rest) :
    (nextItem first).Gives bytes false (Byte.closeBracket :: rest) := by
  rw [nextItem, gives_blanks_bind, gives_peek_bind, h]
  simp

theorem gives_nextItem_first {reader : Reader α} {part : List Char} {value : α}
    (hpart : reader.Reads part value) {gap : List Char} (hgap : Gap gap) (text : List Char)
    (rest : List UInt8) :
    (nextItem true).Gives (encoded (gap ++ (part ++ text)) ++ rest) true
      (encoded part ++ (encoded text ++ rest)) := by
  obtain ⟨byte, bytes, hbytes, -, hbracket, -⟩ := hpart.starts.append (encoded text ++ rest)
  rw [nextItem, gives_blanks_bind, gives_peek_bind, hpart.afterBlanks_gap hgap, hbytes]
  simp [hbracket]

/-- The items of an array are read if each is. -/
theorem gives_items {item : Reader α} {values : List α}
    (hparts : List.Forall₂ item.Reads parts values) (h : Inside ']' parts text)
    (rest : List UInt8) : (items item).Gives (encoded text ++ rest) values rest := by
  cases h with
  | nil hgap =>
    cases hparts
    have hnext := gives_nextItem_closing true (afterBlanks_closing hgap (.inl rfl) rest)
    exact gives_bind_iff.2 ⟨false, _, hnext, by simp⟩
  | @cons gap part text later hgap hcontinued =>
    cases hparts with | @cons _ value _ values hpart hlater =>
    have hread := hpart.gives_encoded (ends_continued (.inl rfl) hcontinued rest)
    have hlast : (loop (itemRound item) (fun _ => .endInList) [value]).Gives
        (encoded text ++ rest) (value :: values) rest := by
      simpa using (rounds_items item).gives_continued (.of_forall hlater [value]) hcontinued rest
    exact gives_bind_iff.2 ⟨true, _, gives_nextItem_first hpart hgap text rest,
      gives_bind_iff.2 ⟨value, _, hread, hlast⟩⟩

/-! ## Objects -/

/-- Takes a member with its name. -/
def memberEntry (member : σ → String → Reader σ) (state : σ) : Reader σ :=
  peekValue >>= fun byte => nameAt byte >>= member state

theorem rounds_members (member : σ → String → Reader σ) :
    Rounds (memberRound member) '\x7d' id (memberEntry member) where
  bracket := .inr rfl
  blank state byte h := by simp [memberRound, h]
  close state := rfl
  comma := by
    rintro state state' bytes rest ⟨byte, later, hafter, hblank, -, hbrace⟩ h
    have hagain : afterBlanks (afterBlanks bytes) = byte :: later := by
      simp [hafter, afterBlanks_cons, hblank]
    rw [memberEntry, gives_peekValue_bind hagain] at h
    rw [memberRound, if_neg (by decide), if_neg (by decide), if_pos rfl, gives_blanks_bind,
      gives_peek_bind, hafter]
    simpa [hbrace, gives_bind_iff] using h

/-- The members of an object are read if one is after the other. -/
theorem gives_members {member : σ → String → Reader σ}
    (hparts : Gathers (memberEntry member) state parts final) (h : Inside '\x7d' parts text)
    (rest : List UInt8) : (members member state).Gives (encoded text ++ rest) final rest := by
  cases h with
  | nil hgap =>
    cases hparts
    have hafter := afterBlanks_closing hgap (.inr rfl) rest
    have hclosing : Byte.ofChar '\x7d' = Byte.closeBrace := rfl
    simp only [members, gives_blanks_bind, gives_peek_bind, hafter]
    simp [hclosing]
  | @cons gap part text later hgap hcontinued =>
    cases hparts with | @cons _ mid _ _ _ hpart hlater =>
    have hafter := hpart.afterBlanks_gap hgap text rest
    have hfirst := hpart.gives_encoded (ends_continued (.inr rfl) hcontinued rest)
    have hlast : (loop (memberRound member) (fun _ => .endInObject) mid).Gives
        (encoded text ++ rest) final rest :=
      (rounds_members member).gives_continued hlater hcontinued rest
    obtain ⟨byte, bytes, hbytes, hblank, -, hbrace⟩ := hpart.starts.append (encoded text ++ rest)
    -- An entry may have white space in front of it, but here it is skipped already.
    have hagain : afterBlanks (byte :: bytes) = byte :: bytes := by simp [afterBlanks_cons, hblank]
    rw [hbytes, memberEntry, gives_peekValue_bind hagain] at hfirst
    rw [members, gives_blanks_bind, gives_peek_bind, hafter, hbytes]
    have hboth := gives_bind_iff.2 ⟨mid, _, hfirst, hlast⟩
    simpa [hbrace, bind_assoc] using hboth

theorem gives_colon {gap : List Char} (h : Gap gap) (text : List Char) (rest : List UInt8) :
    colon.Gives (encoded (gap ++ ':' :: text) ++ rest) () (encoded text ++ rest) := by
  have hafter : afterBlanks (encoded (gap ++ ':' :: text) ++ rest) =
      Byte.colon :: (encoded text ++ rest) := by
    rw [encoded_append, List.append_assoc, afterBlanks_encoded_append h,
      encoded_cons_of_ascii (by decide)]
    rfl
  rw [colon, gives_blanks_bind, gives_peek_bind, hafter]
  simp

theorem gives_nameAt {text : List Char} {name : String} (h : Spells text name.toList)
    (rest : List UInt8) :
    (nameAt (Byte.ofChar '"')).Gives (encoded ('"' :: (text ++ ['"'])) ++ rest) name rest := by
  rw [encoded_cons_of_ascii (by decide), List.cons_append, nameAt, if_pos (by decide),
    gives_take_bind]
  exact gives_stringRest h rest

/-- A member is read if the reader that its name selects reads its value, behind the colon. -/
theorem reads_memberEntry {m : MemberText} (h : m.Spaced) {member : σ → String → Reader σ}
    {name : String} (hname : Spells m.name name.toList) {reader : Reader σ}
    (hmember : member state name = colon >>= fun _ => reader)
    (hreader : reader.Reads m.value final) :
    (memberEntry member state).Reads m.chars final := by
  refine reads_peekValue_bind (encoded_cons_of_ascii (by decide) _) (by decide) fun rest hrest => ?_
  have hbytes : Byte.ofChar '"' ::
      (encoded (m.name ++ '"' :: (m.before ++ ':' :: (m.behind ++ m.value))) ++ rest) =
        encoded ('"' :: (m.name ++ ['"'])) ++
          (encoded (m.before ++ ':' :: (m.behind ++ m.value)) ++ rest) := by
    rw [encoded_cons_of_ascii (by decide)]
    simp [encoded_cons]
  have hafter := hreader.afterBlanks_gap h.behind [] rest
  rw [List.append_nil] at hafter
  have hvalue : (member state name).Gives
      (encoded (m.before ++ ':' :: (m.behind ++ m.value)) ++ rest) final rest := by
    rw [hmember]
    exact gives_bind_iff.2
      ⟨(), _, gives_colon h.before _ rest, hreader.gives hafter (by simpa using hrest)⟩
  exact hbytes ▸ gives_bind_iff.2 ⟨name, _, gives_nameAt hname _, hvalue⟩

theorem reads_memberEntry_written {form : Spacing} (h : form.Blank)
    {member : σ → String → Reader σ} {key : String} {reader : Reader σ}
    (hmember : member state key = colon >>= fun _ => reader)
    {text : List Char} (hreader : reader.Reads text final) :
    (memberEntry member state).Reads (form.member key text) final := by
  obtain ⟨m, hchars, hspaced, hname, rfl⟩ := h.exists_memberText key text
  exact hchars ▸ reads_memberEntry hspaced hname hmember hreader

/-! ## Brackets -/

/-- A reader that goes on with the content of a bracket reads what is behind the bracket if it gives
    this content. -/
theorem reads_bracket {next : UInt8 → Reader α} {content : Reader α} {opening : Char} {value : α}
    (hopening : opening = '[' ∨ opening = '\x7b')
    (hnext : next (Byte.ofChar opening) = Reader.take >>= fun _ => content)
    (hcontent : ∀ rest, content.Gives (encoded text ++ rest) value rest) :
    (peekValue >>= next).Reads (opening :: text) value := by
  have hspec : opening.toNat < 0x80 ∧ Byte.BeginsValue (Byte.ofChar opening) := by
    obtain rfl | rfl := hopening <;> decide
  refine reads_peekValue_bind (encoded_cons_of_ascii hspec.1 _) hspec.2 fun rest _ => ?_
  rw [hnext, gives_take_bind]
  exact hcontent rest

end Reader

open Reader

variable {α τ : Type} {form : Spacing} {depth levels : Nat} {parts : List (List Char)}

theorem Decoder.reads_list {decoder : Decoder α} {values : List α} {text : List Char}
    (hparts : List.Forall₂ (decoder levels).Reads parts values) (h : Inside ']' parts text) :
    (Decoder.list decoder (levels + 1)).Reads ('[' :: text) values :=
  reads_bracket (.inl rfl) (if_pos (by decide)) (gives_items hparts h)

theorem Decoder.reads_list_written (h : form.Blank) {decoder : Decoder α} {values : List α}
    (hparts : List.Forall₂ (decoder levels).Reads parts values) :
    (Decoder.list decoder (levels + 1)).Reads (form.enclose depth '[' ']' parts) values := by
  rw [Spacing.enclose_eq]
  exact reads_list hparts (h.inside depth ']' parts)

/-! ## Records -/

namespace Record

section Fields

variable {record : Record τ}

/-- The names of the fields of a record. -/
def names (record : Record τ) : List String :=
  record.fields.map (·.name)

theorem find?_eq_some (hnames : record.names.Nodup) {field : Field τ}
    (hfield : field ∈ record.fields) : record.fields.find? (·.name = field.name) = some field := by
  obtain ⟨earlier, later, hfields⟩ := List.append_of_mem hfield
  rw [names, hfields, List.map_append, List.nodup_append] at hnames
  have hnone : earlier.find? (·.name = field.name) = none := by
    simp only [List.find?_eq_none, decide_eq_true_eq]
    exact fun other hother hname =>
      hnames.2.2 _ (List.mem_map.2 ⟨other, hother, rfl⟩) field.name (by simp) hname
  simp [hfields, hnone]

/-- A field that was not given is read and stored, and its name is given. -/
theorem member_field (hnames : record.names.Nodup) {field : Field τ}
    (hfield : field ∈ record.fields) {r : τ} {given : List String} (hnew : field.name ∉ given) :
    record.member levels ⟨r, given⟩ field.name =
      colon >>= fun _ => (fun r => ⟨r, field.name :: given⟩) <$> field.read r levels := by
  rw [member, find?_eq_some hnames hfield]
  simp only [if_neg hnew]
  rfl

end Fields

/-- Whether some members are read into the fields of a record, one after the other. Fields that need
    not be given may be left out. -/
inductive Fills (form : Spacing) (depth levels : Nat) :
    List (Field τ) → τ → List (String × Value) → τ → Prop
  | nil {r : τ} : Fills form depth levels [] r [] r
  | cons {field : Field τ} {later : List (Field τ)} {r mid final : τ} {value : Value}
    {members : List (String × Value)} :
    (field.read r levels).Reads (value.chars form depth) mid →
    Fills form depth levels later mid members final →
    Fills form depth levels (field :: later) r ((field.name, value) :: members) final
  | skip {field : Field τ} {later : List (Field τ)} {r final : τ}
    {members : List (String × Value)} :
    field.presence ≠ .required → Fills form depth levels later r members final →
    Fills form depth levels (field :: later) r members final

variable {record : Record τ} {members : List (String × Value)} {r final : τ}

/-- A field that must be given is. -/
theorem Fills.mem_of_required {fields : List (Field τ)}
    (hfills : Fills form depth levels fields r members final) {field : Field τ}
    (hfield : field ∈ fields) (hrequired : field.presence = .required) :
    field.name ∈ members.map (·.1) := by
  induction hfills with
  | nil => exact absurd hfield List.not_mem_nil
  | cons _ _ ih =>
    rcases List.mem_cons.1 hfield with rfl | hfield
    · exact List.mem_cons_self
    · exact List.mem_cons_of_mem _ (ih hfield)
  | skip hpresence _ ih =>
    rcases List.mem_cons.1 hfield with rfl | hfield
    · exact absurd hrequired hpresence
    · exact ih hfield

/-- The members are read in the order of their fields, and each name is marked as given. Only names
    of earlier fields may have been given before. -/
theorem Fills.gathers (h : form.Blank) (hnames : record.names.Nodup)
    {earlier fields : List (Field τ)} (hfields : record.fields = earlier ++ fields)
    (hfills : Fills form depth levels fields r members final) {given : List String}
    (hgiven : given ⊆ earlier.map (·.name)) :
    Gathers (memberEntry (record.member levels)) ⟨r, given⟩ (memberChars form depth members)
      ⟨final, (members.map (·.1)).reverse ++ given⟩ := by
  induction hfills generalizing earlier given with
  | nil => exact .nil
  | @cons field later r mid final value members hread _ ih =>
    have hnew : field.name ∉ earlier.map (·.name) := by
      rw [names, hfields, List.map_append, List.nodup_append] at hnames
      exact fun hmem => hnames.2.2 _ hmem _ (by simp) rfl
    have hfield : field ∈ record.fields :=
      hfields ▸ List.mem_append_right earlier List.mem_cons_self
    have hungiven : field.name ∉ given := mt (@hgiven _) hnew
    -- The field read is now one of the earlier ones, and its name is given.
    have hlater := @ih (earlier ++ [field]) (by simp [hfields]) (field.name :: given) (by
      rw [List.map_append, List.cons_subset]
      exact ⟨by simp, fun name hname => List.mem_append_left _ (hgiven hname)⟩)
    rw [List.map_cons, List.reverse_cons, List.append_assoc, memberChars]
    exact .cons (reads_memberEntry_written h (member_field hnames hfield hungiven) (hread.map _))
      hlater
  | @skip field later r final members _ _ ih =>
    refine @ih (earlier ++ [field]) (by simp [hfields]) given fun name hname => ?_
    rw [List.map_append]
    exact List.mem_append_left _ (hgiven hname)

/-- A record is read from an object with members in the order of its fields. -/
theorem reads_decoder (record : Record τ) (h : form.Blank)
    (hnames : record.names.Nodup)
    (hfills : Fills form (depth + 1) levels record.fields record.blank members final) :
    (record.decoder (levels + 1)).Reads ((Value.object members).chars form depth) final := by
  have hmissing : record.missing? ((members.map (·.1)).reverse ++ []) = none := by
    simp only [missing?, Option.map_eq_none_iff, List.find?_eq_none, decide_eq_true_eq, not_and,
      not_not, List.append_nil, List.mem_reverse]
    exact fun field hfield => hfills.mem_of_required hfield
  have hcontent : ∀ rest, (record.fromObject levels).Gives
      (encoded (form.inside depth '\x7d' (memberChars form (depth + 1) members)) ++ rest)
      final rest := by
    intro rest
    have hmembers := hfills.gathers h hnames (List.nil_append _).symm (List.nil_subset _)
    have hinside := h.inside depth '\x7d' (memberChars form (depth + 1) members)
    exact gives_bind_iff.2
      ⟨_, _, gives_members hmembers hinside rest, by simp only [hmissing]; simp⟩
  rw [Value.chars, Spacing.enclose_eq]
  refine reads_bracket (.inr rfl) ?_ hcontent
  rw [if_neg (by decide), if_pos (by decide)]
  rfl

end Record

end SchemaMatch.Json

import Mathlib.Data.List.Nodup
import SchemaMatch.Proofs.Json.Skipping

/-!
# Records and names are read in every form

An object may give the fields of a record in any order, may leave some of them out, and may have
members of other names between them, with any values (`Mixed`). Each field that is given is stored
when its member is read (`Record.gathers_members`). Since no field is given twice and what is stored
for one field leaves the others as they are (`Record.Stores`), the record is the same as if the
members came in the order of the fields: `Record.reads_members`.

A record may also be given as an array (`Record.reads_items`), and a name as an object with `null`
(`Decoder.reads_named_object`).
-/

namespace SchemaMatch.Json

open Reader

/-- Those of some keys that an object gives, in the order of its members. -/
def givenKeys (keys : List String) (members : List (String × List Char)) : List String :=
  (members.map (·.1)).filter fun name => name ∈ keys

/-- Whether an object gives each of some keys at most once, among members of other names of which
    the values are any. -/
structure Mixed (keys : List String) (members : List (String × List Char)) : Prop where
  once : (givenKeys keys members).Nodup
  others : ∀ m ∈ members, m.1 ∉ keys → ValueText m.2

/-- Whether an object gives a value for a key, by a text of this value, or none. -/
inductive Offers {α : Type} (IsText : α → List Char → Prop) (key : String)
    (members : List (String × List Char)) : Option α → Prop
  | absent : key ∉ members.map (·.1) → Offers IsText key members none
  | given {value : α} {text : List Char} :
    (key, text) ∈ members → IsText value text → Offers IsText key members (some value)

section Members

variable {α : Type} {IsText : α → List Char → Prop} {keys : List String} {key : String}
  {members members' : List (String × List Char)}

theorem mem_givenKeys {name : String} :
    name ∈ givenKeys keys members ↔ name ∈ members.map (·.1) ∧ name ∈ keys := by
  simp [givenKeys]

theorem givenKeys_cons_of_mem {name : String} {text : List Char} (h : name ∈ keys) :
    givenKeys keys ((name, text) :: members) = name :: givenKeys keys members :=
  List.filter_cons_of_pos (by simpa using h)

theorem givenKeys_cons_of_not_mem {name : String} {text : List Char} (h : name ∉ keys) :
    givenKeys keys ((name, text) :: members) = givenKeys keys members :=
  List.filter_cons_of_neg (by simpa using h)

theorem Mixed.of_cons {m : String × List Char} (h : Mixed keys (m :: members)) :
    Mixed keys members where
  once := h.once.sublist (((List.sublist_cons_self m members).map _).filter _)
  others m' hm' := h.others m' (List.mem_cons_of_mem m hm')

theorem Mixed.perm (h : Mixed keys members) (hperm : members.Perm members') :
    Mixed keys members' where
  once := ((hperm.map _).filter _).nodup_iff.1 h.once
  others m hm := h.others m (hperm.mem_iff.2 hm)

theorem Offers.perm {value : Option α} (h : Offers IsText key members value)
    (hperm : members.Perm members') : Offers IsText key members' value := by
  cases h with
  | absent h => exact .absent fun hkey => h ((hperm.map _).mem_iff.2 hkey)
  | given hmem htext => exact .given (hperm.mem_iff.1 hmem) htext

/-- A key that is given at most once has one text. -/
theorem Mixed.eq_of_mem (h : Mixed keys members) (hkey : key ∈ keys) {text text' : List Char}
    (hmem : (key, text) ∈ members) (hmem' : (key, text') ∈ members) : text = text' := by
  induction members with
  | nil => exact absurd hmem List.not_mem_nil
  | cons m later ih =>
    -- A key of the first member is not given again.
    have hfirst : ∀ {text'}, m.1 = key → (key, text') ∉ later := by
      rintro text' rfl hlater
      have honce : (m.1 :: givenKeys keys later).Nodup := givenKeys_cons_of_mem hkey ▸ h.once
      exact (List.nodup_cons.1 honce).1
        (mem_givenKeys.2 ⟨List.mem_map.2 ⟨_, hlater, rfl⟩, hkey⟩)
    rcases List.mem_cons.1 hmem with rfl | hlater
    · rcases List.mem_cons.1 hmem' with heq | hlater'
      · exact (congrArg Prod.snd heq).symm
      · exact absurd hlater' (hfirst rfl)
    · rcases List.mem_cons.1 hmem' with rfl | hlater'
      · exact absurd hlater (hfirst rfl)
      · exact ih h.of_cons hlater hlater'

/-- The text that is given for a key is a text of the value that is given. -/
theorem Offers.exists_of_mem {value : Option α} (h : Offers IsText key members value)
    (hmixed : Mixed keys members) (hkey : key ∈ keys) {text : List Char}
    (hmem : (key, text) ∈ members) : ∃ v, value = some v ∧ IsText v text := by
  cases h with
  | absent h => exact absurd (List.mem_map.2 ⟨_, hmem, rfl⟩) h
  | @given v text' hmem' htext => exact ⟨v, rfl, hmixed.eq_of_mem hkey hmem hmem' ▸ htext⟩

theorem Offers.eq_none {value : Option α} (h : Offers IsText key members value)
    (hkey : key ∉ members.map (·.1)) : value = none := by
  cases h with
  | absent => rfl
  | given hmem => exact absurd (List.mem_map.2 ⟨_, hmem, rfl⟩) hkey

end Members

/-- What the members of an object store in a record for one of its fields. -/
structure Field.Stores {τ : Type} (field : Field τ) (levels : Nat)
    (members : List (String × List Char)) (store : τ → τ) : Prop where
  given : ∀ text, (field.name, text) ∈ members → ∀ r, (field.read r levels).Reads text (store r)
  absent : field.name ∉ members.map (·.1) → ∀ r, store r = r

/-- What is given for a field is put into it, if anything is. -/
theorem Offers.stores_field {α β τ : Type} {IsText : α → List Char → Prop} {levels : Nat}
    {keys : List String} {members : List (String × List Char)} {name : String} {value : Option α}
    (h : Offers IsText name members value) (hmixed : Mixed keys members) (hkey : name ∈ keys)
    {decoder : Decoder β} {f : α → β}
    (hread : ∀ {value text}, IsText value text → (decoder levels).Reads text (f value))
    {put : τ → β → τ} {store : τ → τ} (hstore : ∀ r, store r = (value.map f).elim r (put r))
    (presence : Presence) :
    (Record.field name presence decoder put).Stores levels members store where
  given text hmem r := by
    obtain ⟨v, rfl, htext⟩ := h.exists_of_mem hmixed hkey hmem
    rw [hstore r]
    exact (hread htext).map _
  absent hname r := by
    rw [hstore r, h.eq_none hname]
    rfl

namespace Record

variable {τ : Type} {record : Record τ} {levels : Nat} {members : List (String × List Char)}
  {store : String → τ → τ}

/-- What the members of an object store in a record, by the names of its fields. -/
structure Stores (record : Record τ) (levels : Nat) (members : List (String × List Char))
    (store : String → τ → τ) : Prop where
  each : ∀ field ∈ record.fields, field.Stores levels members (store field.name)
  apart : ∀ name name' r, store name (store name' r) = store name' (store name r)

/-- A member of another name is passed over. -/
theorem member_other {name : String} (hname : name ∉ record.names)
    (part : Partial τ) :
    record.member levels part name = colon >>= fun _ => (fun _ => part) <$> skipValue := by
  have hnone : record.fields.find? (·.name = name) = none := by
    simp only [List.find?_eq_none, decide_eq_true_eq]
    exact fun field hfield h => hname (List.mem_map.2 ⟨field, hfield, h⟩)
  rw [member, hnone]
  rfl

/-- The members are read one after the other, each into what those before it left. -/
theorem gathers_members (hnames : record.names.Nodup)
    (hread : ∀ field ∈ record.fields, ∀ text, (field.name, text) ∈ members →
      ∀ r, (field.read r levels).Reads text (store field.name r))
    (hmixed : Mixed record.names members) {parts : List (List Char)}
    (hparts : List.Forall₂ IsMember members parts) {earlier : List String}
    (hearlier : ∀ name ∈ earlier, name ∉ givenKeys record.names members) (r : τ) :
    Gathers (memberEntry (record.member levels)) ⟨r, earlier⟩ parts
      ⟨(givenKeys record.names members).foldl (fun r name => store name r) r,
        (givenKeys record.names members).reverse ++ earlier⟩ := by
  -- By induction on the members that are still to come: `earlier` are the names given so far, none
  -- of which comes again.
  induction hparts generalizing earlier r with
  | nil => exact .nil
  | @cons entry part members parts hpart _ ih =>
    obtain ⟨name, text⟩ := entry
    obtain ⟨m, rfl, hspaced, hname, rfl⟩ := hpart
    have hlater := fun field hfield text hmem =>
      hread field hfield text (List.mem_cons_of_mem _ hmem)
    by_cases hknown : name ∈ record.names
    · have honce : (name :: givenKeys record.names members).Nodup :=
        givenKeys_cons_of_mem hknown ▸ hmixed.once
      rw [givenKeys_cons_of_mem hknown] at hearlier ⊢
      obtain ⟨field, hfield, rfl⟩ := List.mem_map.1 hknown
      have hnew : field.name ∉ earlier := fun h => hearlier _ h (by simp)
      have hfirst := (hread field hfield m.value (by simp) r).map
        fun r => (⟨r, field.name :: earlier⟩ : Partial τ)
      have hboth : ∀ name ∈ field.name :: earlier, name ∉ givenKeys record.names members :=
        List.forall_mem_cons.2 ⟨(List.nodup_cons.1 honce).1,
          fun name hname hmem => hearlier name hname (List.mem_cons_of_mem _ hmem)⟩
      have hlast := ih hlater hmixed.of_cons hboth (store field.name r)
      rw [List.foldl_cons, List.reverse_cons, List.append_assoc]
      exact .cons (reads_memberEntry hspaced hname (member_field hnames hfield hnew) hfirst) hlast
    · -- A member of another name leaves the record and the names as they are.
      have hvalue := reads_skipValue (hmixed.others (name, m.value) (by simp) hknown)
      rw [givenKeys_cons_of_not_mem hknown] at hearlier ⊢
      exact .cons (reads_memberEntry hspaced hname (member_other hknown _) (hvalue.map _))
        (ih hlater hmixed.of_cons hearlier r)

/-- What is stored for the fields in the order of the members is what is stored in their own. -/
theorem foldl_givenKeys (hnames : record.names.Nodup) (hmixed : Mixed record.names members)
    (hstores : record.Stores levels members store) (r : τ) :
    (givenKeys record.names members).foldl (fun r name => store name r) r =
      record.fields.foldl (fun r field => store field.name r) r := by
  -- No name comes twice in either order, so the same names make the one a permutation of the other.
  have hperm : (givenKeys record.names members).Perm
      (record.names.filter fun name => name ∈ members.map (·.1)) := by
    refine (List.perm_ext_iff_of_nodup hmixed.once (hnames.filter _)).2 fun name => ?_
    rw [mem_givenKeys, List.mem_filter, decide_eq_true_eq, and_comm]
  rw [hperm.foldl_eq' fun name _ name' _ r => hstores.apart name' name r, List.foldl_filter, names,
    List.foldl_map]
  refine List.foldl_ext _ _ _ fun r field hfield => ?_
  split
  · rfl
  · -- Nothing is stored for a field that is not given.
    next hname => exact ((hstores.each field hfield).absent (by simpa using hname) r).symm

/-- A record is read from an object with members in any order as if they came in the order of its
    fields. -/
theorem reads_members (hnames : record.names.Nodup) (hmixed : Mixed record.names members)
    (hstores : record.Stores levels members store)
    (hrequired : ∀ field ∈ record.fields, field.presence = .required →
      field.name ∈ members.map (·.1)) {text : List Char} (htext : ObjectText members text) :
    (record.decoder (levels + 1)).Reads text
      (record.fields.foldl (fun r field => store field.name r) record.blank) := by
  obtain ⟨parts, inner, rfl, hparts, hinside⟩ := htext
  have hmissing : record.missing? ((givenKeys record.names members).reverse ++ []) = none := by
    simp only [missing?, Option.map_eq_none_iff, List.find?_eq_none, decide_eq_true_eq, not_and,
      not_not, List.append_nil, List.mem_reverse]
    exact fun field hfield hpresence => mem_givenKeys.2
      ⟨hrequired field hfield hpresence, List.mem_map.2 ⟨field, hfield, rfl⟩⟩
  have hgathers := gathers_members hnames (fun field hfield => (hstores.each field hfield).given)
    hmixed hparts (List.forall_mem_nil _) record.blank
  have hcontent : ∀ rest, (record.fromObject levels).Gives (Text.encoded inner ++ rest)
      (record.fields.foldl (fun r field => store field.name r) record.blank) rest := by
    intro rest
    refine gives_bind_iff.2 ⟨_, _, gives_members hgathers hinside rest, ?_⟩
    simp only [hmissing, foldl_givenKeys hnames hmixed hstores]
    simp
  refine reads_bracket (.inr rfl) ?_ hcontent
  rw [if_neg (by decide), if_pos (by decide)]
  rfl

/-! ## Items -/

/-- Whether the items of an array are read into the fields of a record, one after the other. Fields
    that keep their value when absent may be left out at the end. -/
inductive Itemizes (levels : Nat) : List (Field τ) → τ → List (List Char) → τ → Prop
  | nil {fields : List (Field τ)} {r : τ} :
    (∀ field ∈ fields, field.presence = .defaulted) → Itemizes levels fields r [] r
  | cons {field : Field τ} {later : List (Field τ)} {r mid final : τ} {part : List Char}
    {parts : List (List Char)} :
    (field.read r levels).Reads part mid → Itemizes levels later mid parts final →
    Itemizes levels (field :: later) r (part :: parts) final

variable {fields : List (Field τ)} {r final : τ} {parts : List (List Char)} {text : List Char}

/-- The closing bracket may stand where all fields left are ones that may be. -/
theorem gives_fromItems_closing (h : ∀ field ∈ fields, field.presence = .defaulted)
    {bytes rest : List UInt8} (hbytes : afterBlanks bytes = Byte.closeBracket :: rest) (r : τ)
    (index : Nat) : (record.fromItems levels r index fields).Gives bytes r rest := by
  induction fields generalizing bytes index with
  | nil =>
    have hclose : closeArray.Gives bytes () rest := by
      rw [closeArray, gives_blanks_bind, gives_peek_bind, hbytes]
      simp
    exact gives_bind_iff.2 ⟨(), rest, hclose, gives_pure_iff.2 ⟨rfl, rfl⟩⟩
  | cons field later ih =>
    refine gives_bind_iff.2 ⟨false, _, gives_nextItem_closing _ hbytes, ?_⟩
    rw [if_neg (by decide), if_pos (h field (by simp))]
    exact ih (fun field hfield => h field (List.mem_cons_of_mem _ hfield)) rfl (index + 1)

theorem gives_fromItems_continued (h : Itemizes levels fields r parts final)
    (hcontinued : Continued ']' parts text) (index : Nat) (rest : List UInt8) :
    (record.fromItems levels r (index + 1) fields).Gives
      (Text.encoded text ++ rest) final rest := by
  induction hcontinued generalizing fields r index with
  | nil hgap =>
    cases h with | nil h =>
    exact gives_fromItems_closing h (afterBlanks_closing hgap (.inl rfl) rest) final (index + 1)
  | @cons gap gap' part text later hgap hgap' hlater ih =>
    cases h with | @cons field fields r mid _ _ _ hpart hparts =>
    have hafter := hpart.afterBlanks_gap hgap' text rest
    have hcomma : afterBlanks (Text.encoded (gap ++ ',' :: (gap' ++ (part ++ text))) ++ rest) =
        Byte.comma :: (Text.encoded (gap' ++ (part ++ text)) ++ rest) := by
      rw [Text.encoded_append, List.append_assoc, afterBlanks_encoded_append hgap,
        Text.encoded_cons_of_ascii (by decide)]
      rfl
    obtain ⟨byte, bytes, hbytes, -, hbracket, -⟩ := hpart.starts.append (Text.encoded text ++ rest)
    have hnext : (nextItem false).Gives
        (Text.encoded (gap ++ ',' :: (gap' ++ (part ++ text))) ++ rest) true (byte :: bytes) := by
      rw [nextItem, gives_blanks_bind, gives_peek_bind, hcomma]
      simp only [List.head?_cons, if_neg (show ¬Byte.comma = Byte.closeBracket by decide),
        Bool.false_eq_true, if_false, if_true, gives_take_bind, List.tail_cons, gives_blanks_bind,
        gives_peek_bind, hafter, hbytes, if_neg hbracket]
      simp
    refine gives_bind_iff.2 ⟨true, _, hnext, ?_⟩
    rw [if_pos rfl, ← hbytes]
    exact gives_bind_iff.2
      ⟨mid, _, hpart.gives_encoded (ends_continued (.inl rfl) hlater rest), ih hparts (index + 1)⟩

/-- A record is read from an array of the values of its fields, in their order. -/
theorem reads_items (h : Itemizes levels record.fields record.blank parts final)
    (hinside : Inside ']' parts text) :
    (record.decoder (levels + 1)).Reads ('[' :: text) final := by
  have hcontent : ∀ rest, (record.fromItems levels record.blank 0 record.fields).Gives
      (Text.encoded text ++ rest) final rest := by
    intro rest
    generalize record.fields = fields at h
    cases hinside with
    | nil hgap =>
      cases h with | nil h =>
      exact gives_fromItems_closing h (afterBlanks_closing hgap (.inl rfl) rest) _ 0
    | @cons gap part text later hgap hcontinued =>
      cases h with | @cons field fields _ mid _ _ _ hpart hparts =>
      have hread := hpart.gives_encoded (ends_continued (.inl rfl) hcontinued rest)
      exact gives_bind_iff.2 ⟨true, _, gives_nextItem_first hpart hgap text rest,
        gives_bind_iff.2 ⟨mid, _, hread, gives_fromItems_continued hparts hcontinued 0 rest⟩⟩
  exact reads_bracket (.inl rfl) (if_pos (by decide)) hcontent

end Record

/-! ## Names -/

namespace Decoder

variable {α : Type}

theorem reads_unit : unit.Reads ['n', 'u', 'l', 'l'] () := by
  refine reads_peekValue_bind (Text.encoded_cons_of_ascii (by decide) _) (by decide)
    fun rest _ => ?_
  rw [if_pos (by decide), gives_take_bind]
  exact gives_word (by simp) rest

/-- Takes the end of an object behind its only member, a name with `null`. -/
def closeNamed (value : α) : Reader α := do
  blanks
  match ← peek with
  | none => fail .endInObject .ahead
  | some byte =>
    if byte = Byte.closeBrace then
      let _ ← take
      return value
    else fail .expectedValue .behind

/-- Takes a name with `null` behind the opening brace of an object, and what it stands for. -/
def namedMember (table : List (String × α)) (name : String) : Reader α := do
  let value ← lookup table name
  colon
  Decoder.unit
  return value

theorem named_eq (table : List (String × α)) (levels : Nat) :
    Decoder.named table (levels + 1) = peekValue >>= fun byte =>
      if byte = Byte.quote then take >>= fun _ => stringRest >>= lookup table
      else if byte = Byte.openBrace then take >>= fun _ => blanks >>= fun _ => peek >>= fun
        | none => fail .endInObject .ahead >>= closeNamed
        | some byte => nameAt byte >>= namedMember table >>= closeNamed
      else fail .expectedValue .ahead := by
  simp only [Decoder.named, nested, namedMember, bind_assoc, pure_bind, closeNamed]
  refine bind_congr fun byte => ?_
  split
  · rfl
  split
  · refine bind_congr fun _ => bind_congr fun _ => bind_congr fun next => ?_
    cases next <;> rfl
  · rfl

/-- A name of a table is also read from an object that gives `null` for it. -/
theorem reads_named_object {table : List (String × α)} {name : String} {value : α}
    (h : table.lookup name = some value) {text : List Char}
    (htext : ObjectText [(name, ['n', 'u', 'l', 'l'])] text) (levels : Nat) :
    (Decoder.named table (levels + 1)).Reads text value := by
  obtain ⟨parts, inner, rfl, hparts, hinside⟩ := htext
  cases hparts with | cons hpart hparts =>
  cases hparts
  obtain ⟨m, rfl, hspaced, hname, hvalue⟩ := hpart
  cases hinside with | @cons gap _ _ _ hgap hcontinued =>
  cases hcontinued with | @nil gap' hgap' =>
  have hmember : (memberEntry (fun _ => namedMember table) value).Reads m.chars value := by
    have hreader : namedMember table name = colon >>= fun _ => (fun _ => value) <$> unit := by
      simp [namedMember, lookup, h]
    exact reads_memberEntry hspaced hname hreader (hvalue ▸ reads_unit.map _)
  rw [named_eq]
  refine reads_bracket (.inr rfl) ((if_neg (by decide)).trans (if_pos (by decide))) fun rest => ?_
  have hclose : (closeNamed value).Gives (Text.encoded (gap' ++ ['\x7d']) ++ rest) value rest := by
    rw [closeNamed, gives_blanks_bind, gives_peek_bind, afterBlanks_closing hgap' (.inr rfl)]
    simp [Byte.ofChar]
  have hfirst := hmember.gives_encoded (ends_continued (.inr rfl) (.nil hgap') rest)
  obtain ⟨byte, bytes, hbytes, hblank, -⟩ :=
    hmember.starts.append (Text.encoded (gap' ++ ['\x7d']) ++ rest)
  have hagain : afterBlanks (byte :: bytes) = byte :: bytes := by simp [afterBlanks_cons, hblank]
  -- The reader of a name has looked at the quote already, which a reader of members still does.
  rw [hbytes, memberEntry, gives_peekValue_bind hagain] at hfirst
  rw [gives_blanks_bind, gives_peek_bind, hmember.afterBlanks_gap hgap, hbytes]
  have hboth := gives_bind_iff.2 ⟨value, _, hfirst, hclose⟩
  simpa [bind_assoc] using hboth

end Decoder

end SchemaMatch.Json

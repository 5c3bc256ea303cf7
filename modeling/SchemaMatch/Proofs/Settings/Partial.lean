import SchemaMatch.Proofs.Json.Members
import SchemaMatch.Proofs.Settings

/-!
# Settings that a text gives in part

A text may give any of the settings of a matcher (`PartialSettings`), in any order and among members
of other names. It is read as the settings that it gives, completed from the preset of the strategy
that it gives, wherever it gives it: `MatchingSettings.decode_members`. A threshold or a projection
may also be `null`, as if it were not given, whereas `null` for the number of candidates is given:
only the best one. The form of a projection is given in part in the same way.
-/

namespace SchemaMatch

open Json Reader

/-! ## What a text may give -/

/-- What a text gives of the form of a projection. -/
structure PartialForm where
  hidden : Option (List UInt64)
  output : Option UInt64
  seed : Option UInt64

/-- What a text gives of the settings of a matcher. What may be `null` is twice optional. -/
structure PartialSettings where
  strategy : Option Strategy
  threshold : Option (Option Float)
  topK : Option (Option TopK)
  projection : Option (Option PartialForm)

/-- The form that is used: what is not given is that of the standard form. -/
def PartialForm.completed (p : PartialForm) : ProjectionForm where
  hidden := p.hidden.getD ProjectionForm.standard.hidden
  output := p.output.getD ProjectionForm.standard.output
  seed := p.seed.getD ProjectionForm.standard.seed

/-- Whether a text is a value or `null`. -/
inductive Nullable {α : Type} (IsText : α → List Char → Prop) : Option α → List Char → Prop
  | null : Nullable IsText none ['n', 'u', 'l', 'l']
  | value {value : α} {text : List Char} : IsText value text → Nullable IsText (some value) text

/-- Whether a text is a natural number: its decimal digits. -/
def NaturalText (n : UInt64) (text : List Char) : Prop :=
  text = Nat.toDigits 10 n.toNat

/-- Whether a text is an array of natural numbers. -/
def NaturalsText (ns : List UInt64) (text : List Char) : Prop :=
  ∃ parts inner, text = '[' :: inner ∧ List.Forall₂ NaturalText ns parts ∧ Inside ']' parts inner

/-- Whether a text is a number that is read as a number in double precision. -/
def DoubleText (x : Float) (text : List Char) : Prop :=
  NumberText text ∧ Decoder.double.decode (Text.encoded text) = .ok x

/-- Whether a text is a number of candidates. -/
def TopK.IsText (k : TopK) (text : List Char) : Prop :=
  NaturalText k.val text

/-- Whether a text is a strategy: its name, or an object that gives `null` for its name. -/
inductive Strategy.IsText (s : Strategy) : List Char → Prop
  | name {spelling : List Char} :
    Spells spelling s.name.toList → Strategy.IsText s ('"' :: (spelling ++ ['"']))
  | object {text : List Char} :
    ObjectText [(s.name, ['n', 'u', 'l', 'l'])] text → Strategy.IsText s text

/-- Whether the members of an object give some of the form of a projection. -/
structure PartialForm.Given (p : PartialForm) (members : List (String × List Char)) : Prop where
  mixed : Mixed ["hidden", "output", "seed"] members
  hidden : Offers NaturalsText "hidden" members p.hidden
  output : Offers NaturalText "output" members p.output
  seed : Offers NaturalText "seed" members p.seed

/-- Whether a text is some of the form of a projection: an object, or an array that begins with what
    it gives, in this order. -/
inductive PartialForm.IsText : PartialForm → List Char → Prop
  | object {p : PartialForm} {members : List (String × List Char)} {text : List Char} :
    p.Given members → ObjectText members text → IsText p text
  | empty {text : List Char} : Inside ']' [] text → IsText ⟨none, none, none⟩ ('[' :: text)
  | hidden {ns : List UInt64} {part text : List Char} :
    NaturalsText ns part → Inside ']' [part] text → IsText ⟨some ns, none, none⟩ ('[' :: text)
  | output {ns : List UInt64} {n : UInt64} {part part' text : List Char} :
    NaturalsText ns part → NaturalText n part' → Inside ']' [part, part'] text →
    IsText ⟨some ns, some n, none⟩ ('[' :: text)
  | all {ns : List UInt64} {n m : UInt64} {part part' part'' text : List Char} :
    NaturalsText ns part → NaturalText n part' → NaturalText m part'' →
    Inside ']' [part, part', part''] text → IsText ⟨some ns, some n, some m⟩ ('[' :: text)

/-- Whether the members of an object give some of the settings of a matcher. -/
structure PartialSettings.Given (p : PartialSettings) (members : List (String × List Char)) :
    Prop where
  mixed : Mixed ["strategy", "threshold", "topK", "projection"] members
  strategy : Offers Strategy.IsText "strategy" members p.strategy
  threshold : Offers (Nullable DoubleText) "threshold" members p.threshold
  topK : Offers (Nullable TopK.IsText) "topK" members p.topK
  projection : Offers (Nullable PartialForm.IsText) "projection" members p.projection

/-- Whether a text is an object with some members, with white space around it or none. -/
def IsObject (members : List (String × List Char)) (text : String) : Prop :=
  ∃ front object back, text.toList = front ++ (object ++ back) ∧ Gap front ∧ Gap back ∧
    ObjectText members object

/-! ## Values -/

section Values

variable {levels : Nat}

theorem DoubleText.reads {x : Float} {text : List Char} (h : DoubleText x text) :
    (Decoder.double levels).Reads text x :=
  Decoder.reads_double_of_decode h.1.not_mem_spaces h.2 levels

theorem NaturalText.reads {n : UInt64} {text : List Char} (h : NaturalText n text)
    (expected : String) : (Decoder.natural expected levels).Reads text n := by
  have hchars : (Number.whole n.toNat).chars = text := Nat.toList_repr.trans h.symm
  exact hchars ▸ Decoder.reads_natural expected levels n

theorem NaturalsText.reads {ns : List UInt64} {text : List Char} (h : NaturalsText ns text)
    (expected : String) :
    (Decoder.list (Decoder.natural expected) (levels + 1)).Reads text ns := by
  obtain ⟨parts, inner, rfl, hparts, hinside⟩ := h
  exact Decoder.reads_list (hparts.flip.imp fun _ _ h => NaturalText.reads h expected) hinside

theorem TopK.IsText.reads {k : TopK} {text : List Char} (h : k.IsText text) :
    (TopK.decoder levels).Reads text k :=
  (NaturalText.reads h _).bind (dif_pos k.property)

theorem Strategy.IsText.reads {s : Strategy} {text : List Char} (h : s.IsText text) :
    (Strategy.decoder (levels + 1)).Reads text s := by
  have hlookup : Strategy.table.lookup s.name = some s := by cases s <;> rfl
  cases h with
  | name h => exact Decoder.reads_named hlookup h (levels + 1)
  | object h => exact Decoder.reads_named_object hlookup h levels

/-- A number does not begin as `null` does. -/
theorem DoubleText.head?_ne {x : Float} {text : List Char} (h : DoubleText x text) :
    (Text.encoded text).head? ≠ some (Byte.ofChar 'n') := by
  obtain ⟨⟨byte, later, hbytes, hbyte⟩, -⟩ := exists_gives_number h.1.not_mem_spaces h.2
  simpa [hbytes] using hbyte.ne _ (by decide)

theorem TopK.IsText.head?_ne {k : TopK} {text : List Char} (h : k.IsText text) :
    (Text.encoded text).head? ≠ some (Byte.ofChar 'n') := by
  have hchars : (Number.whole k.val.toNat).chars = text := Nat.toList_repr.trans h.symm
  exact hchars ▸ (Decoder.readable_natural k.val).head?_ne

/-- What may be `null` is read, if what is not does not begin as `null` does. -/
theorem Nullable.reads {α β : Type} {IsText : α → List Char → Prop} {decoder : Decoder β}
    {f : α → β} {value : Option α} {text : List Char} (h : Nullable IsText value text)
    (hread : ∀ {value text}, IsText value text → (decoder levels).Reads text (f value))
    (hnull : ∀ {value text}, IsText value text →
      (Text.encoded text).head? ≠ some (Byte.ofChar 'n')) :
    (Decoder.optional decoder levels).Reads text (value.map f) := by
  cases h with
  | null => exact Decoder.reads_optional_null decoder levels
  | value h => exact Decoder.reads_optional_some (hread h) (hnull h)

/-- What is given under a name, where that is the key, and else what is there already. -/
def stored {α : Type} (key name : String) (given : Option α) (there : α) : α :=
  if name = key then given.getD there else there

theorem stored_comm {α : Type} (key name name' : String) (given : Option α) (there : α) :
    stored key name given (stored key name' given there) =
      stored key name' given (stored key name given there) := by
  simp only [stored]
  split_ifs <;> rfl

end Values

/-! ## Projections -/

section Projections

variable {levels : Nat} {p : PartialForm} {members : List (String × List Char)}

/-- Stores what is given of a form under a name. -/
def PartialForm.store (p : PartialForm) (name : String) (c : ProjectionForm) : ProjectionForm where
  hidden := stored "hidden" name p.hidden c.hidden
  output := stored "output" name p.output c.output
  seed := stored "seed" name p.seed c.seed

@[simp] theorem PartialForm.store_hidden (c : ProjectionForm) :
    p.store "hidden" c = { c with hidden := p.hidden.getD c.hidden } := rfl

@[simp] theorem PartialForm.store_output (c : ProjectionForm) :
    p.store "output" c = { c with output := p.output.getD c.output } := rfl

@[simp] theorem PartialForm.store_seed (c : ProjectionForm) :
    p.store "seed" c = { c with seed := p.seed.getD c.seed } := rfl

theorem PartialForm.Given.stores (h : p.Given members) :
    ProjectionForm.record.Stores (levels + 1) members p.store where
  each := by
    refine List.forall_mem_cons.2 ⟨?_, List.forall_mem_cons.2 ⟨?_, List.forall_mem_cons.2
      ⟨?_, nofun⟩⟩⟩
    · exact h.hidden.stores_field h.mixed (by decide) (fun h => h.reads "usize")
        (fun c => (store_hidden c).trans (by cases p.hidden <;> rfl)) .defaulted
    · exact h.output.stores_field h.mixed (by decide) (fun h => NaturalText.reads h "usize")
        (fun c => (store_output c).trans (by cases p.output <;> rfl)) .defaulted
    · exact h.seed.stores_field h.mixed (by decide) (fun h => NaturalText.reads h "u64")
        (fun c => (store_seed c).trans (by cases p.seed <;> rfl)) .defaulted
  apart name name' c := by
    simp only [store, ProjectionForm.mk.injEq]
    exact ⟨stored_comm .., stored_comm .., stored_comm ..⟩

/-- A form is read as what is given of it, completed from the standard one. -/
theorem PartialForm.IsText.reads {text : List Char} (h : p.IsText text) :
    (ProjectionForm.record.decoder (levels + 2)).Reads text p.completed := by
  cases h with
  | object h htext =>
    have hnames : ProjectionForm.record.names.Nodup := by decide
    have hdefaulted : ∀ field ∈ ProjectionForm.record.fields, field.presence ≠ .required := by
      decide
    exact Record.reads_members hnames h.mixed h.stores
      (fun field hfield hrequired => absurd hrequired (hdefaulted field hfield)) htext
  | empty hinside => exact Record.reads_items (.nil (by decide)) hinside
  | hidden hns hinside =>
    exact Record.reads_items (.cons ((hns.reads "usize").map _) (.nil (by decide))) hinside
  | output hns hn hinside =>
    exact Record.reads_items
      (.cons ((hns.reads "usize").map _) (.cons ((NaturalText.reads hn "usize").map _)
        (.nil (by decide)))) hinside
  | all hns hn hm hinside =>
    exact Record.reads_items
      (.cons ((hns.reads "usize").map _) (.cons ((NaturalText.reads hn "usize").map _)
        (.cons ((NaturalText.reads hm "u64").map _) (.nil nofun)))) hinside

theorem PartialForm.IsText.head?_ne {text : List Char} (h : p.IsText text) :
    (Text.encoded text).head? ≠ some (Byte.ofChar 'n') := by
  have hopening : ∃ opening inner, text = opening :: inner ∧ opening ∈ ['[', '\x7b'] := by
    cases h with
    | object _ htext =>
      obtain ⟨_, inner, rfl, -⟩ := htext
      exact ⟨_, inner, rfl, by decide⟩
    | empty | hidden | output | all => exact ⟨_, _, rfl, by decide⟩
  obtain ⟨opening, inner, rfl, hmem⟩ := hopening
  have hall : ∀ c ∈ ['[', '\x7b'], c.toNat < 0x80 ∧ Byte.ofChar c ≠ Byte.ofChar 'n' :=
    forall_mem_pair.2 (by decide)
  rw [Text.encoded_cons_of_ascii (hall opening hmem).1]
  simpa using (hall opening hmem).2

end Projections

/-! ## Settings -/

section Settings

variable {levels : Nat} {p : PartialSettings} {members members' : List (String × List Char)}

/-- Stores what is given of some settings under a name. -/
def PartialSettings.store (p : PartialSettings) (name : String) (c : GivenSettings) :
    GivenSettings where
  strategy := stored "strategy" name p.strategy c.strategy
  threshold := stored "threshold" name p.threshold c.threshold
  topK := stored "topK" name (p.topK.map some) c.topK
  projection :=
    stored "projection" name (p.projection.map (·.map PartialForm.completed)) c.projection

theorem PartialSettings.Given.perm (h : p.Given members) (hperm : members.Perm members') :
    p.Given members' :=
  ⟨h.mixed.perm hperm, h.strategy.perm hperm, h.threshold.perm hperm, h.topK.perm hperm,
    h.projection.perm hperm⟩

@[simp] theorem PartialSettings.store_strategy (c : GivenSettings) :
    p.store "strategy" c = { c with strategy := p.strategy.getD c.strategy } := rfl

@[simp] theorem PartialSettings.store_threshold (c : GivenSettings) :
    p.store "threshold" c = { c with threshold := p.threshold.getD c.threshold } := rfl

@[simp] theorem PartialSettings.store_topK (c : GivenSettings) :
    p.store "topK" c = { c with topK := (p.topK.map some).getD c.topK } := rfl

@[simp] theorem PartialSettings.store_projection (c : GivenSettings) :
    p.store "projection" c =
      { c with projection := (p.projection.map (·.map PartialForm.completed)).getD c.projection } :=
  rfl

theorem PartialSettings.Given.stores (h : p.Given members) :
    GivenSettings.record.Stores (levels + 2) members p.store where
  each := by
    refine List.forall_mem_cons.2 ⟨?_, List.forall_mem_cons.2 ⟨?_, List.forall_mem_cons.2
      ⟨?_, List.forall_mem_cons.2 ⟨?_, nofun⟩⟩⟩⟩
    · exact h.strategy.stores_field h.mixed (by decide) (·.reads)
        (fun c => (store_strategy c).trans (by cases p.strategy <;> rfl)) .defaulted
    · exact h.threshold.stores_field h.mixed (by decide) (·.reads (·.reads) (·.head?_ne))
        (fun c => (store_threshold c).trans (by rcases p.threshold with _ | _ | _ <;> rfl))
        .optional
    · exact h.topK.stores_field h.mixed (by decide) (·.reads (·.reads) (·.head?_ne))
        (fun c => (store_topK c).trans (by rcases p.topK with _ | _ | _ <;> rfl)) .defaulted
    · exact h.projection.stores_field h.mixed (by decide) (·.reads (·.reads) (·.head?_ne))
        (fun c => (store_projection c).trans (by cases p.projection <;> rfl)) .optional
  apart name name' c := by
    simp only [store, GivenSettings.mk.injEq]
    exact ⟨stored_comm .., stored_comm .., stored_comm .., stored_comm ..⟩

/-- Settings are read from an object that gives some of them. -/
theorem PartialSettings.Given.reads (h : p.Given members) {text : List Char}
    (htext : ObjectText members text) :
    (MatchingSettings.decoder (levels + 3)).Reads text
      (.ofPartial ⟨p.strategy.getD .cosine, p.threshold.join, p.topK,
        p.projection.join.map PartialForm.completed⟩) := by
  have hnames : GivenSettings.record.names.Nodup := by decide
  have hoptional : ∀ field ∈ GivenSettings.record.fields, field.presence ≠ .required := by decide
  have hgiven : (GivenSettings.record.decoder (levels + 3)).Reads text _ :=
    Record.reads_members hnames h.mixed h.stores
      (fun field hfield hrequired => absurd hrequired (hoptional field hfield)) htext
  have hthreshold : p.threshold.getD none = p.threshold.join := by
    rcases p.threshold with _ | _ | _ <;> rfl
  have htopK : (p.topK.map some).getD none = p.topK := by
    rcases p.topK with _ | _ <;> rfl
  have hprojection : (p.projection.map (·.map PartialForm.completed)).getD none =
      p.projection.join.map PartialForm.completed := by
    rcases p.projection with _ | _ | _ <;> rfl
  -- What is stored in the fields is what is given, where `null` for a threshold or a projection is
  -- no different from none.
  rw [← hthreshold, ← htopK, ← hprojection]
  exact hgiven.map MatchingSettings.ofPartial

/-- An object is read as the settings that it gives, each one that it does not give from the preset
    of its strategy, in whatever order its members come. -/
theorem MatchingSettings.decode_members (h : p.Given members) :
    ∀ members' text, members.Perm members' → IsObject members' text →
      decoder.decode (Text.bytes text) = .ok
        { strategy := p.strategy.getD .cosine
          threshold := p.threshold.join.getD (preset (p.strategy.getD .cosine)).threshold
          topK := p.topK.getD (preset (p.strategy.getD .cosine)).topK
          projection := (p.projection.join.map PartialForm.completed).getD
            (preset (p.strategy.getD .cosine)).projection } := by
  rintro members' text hperm ⟨front, object, back, htext, hfront, hback, hobject⟩
  rw [Text.bytes_eq_encoded, htext]
  exact Decoder.decode_encoded_gaps ((h.perm hperm).reads hobject) hfront hback

/-- A text that gives the strategy behind what depends on it, with an escape in its name, and a
    member of another name whose number is too large to be read. -/
def MatchingSettings.sampleText : String :=
  "\x7b\"x\":[1e999],\n\"topK\":null, \"projection\": \x7b\"seed\": 7\x7d," ++
    "\"\\u0073trategy\":\"projected\"\x7d "

/-- The members of this text. -/
def MatchingSettings.sampleMembers : List (String × List Char) :=
  [("x", "[1e999]".toList), ("topK", "null".toList),
    ("projection", "\x7b\"seed\": 7\x7d".toList), ("strategy", "\"projected\"".toList)]

theorem MatchingSettings.decode_members_sample :
    (PartialSettings.Given ⟨some .projected, none, some none, some (some ⟨none, none, some 7⟩)⟩
        sampleMembers ∧
      sampleMembers.Perm sampleMembers ∧ IsObject sampleMembers sampleText) ∧
      decoder.decode (Text.bytes sampleText) =
        .ok ⟨.projected, 0.80, none, ⟨[512, 256], 128, 7⟩⟩ := by
  have hplain : ∀ (name : String) (gap value : List Char), Gap gap → IsMember (name, value)
      ('"' :: (name.toList.flatMap escapedChar ++ '"' :: ':' :: (gap ++ value))) :=
    fun name gap value hgap => ⟨⟨name.toList.flatMap escapedChar, [], gap, value⟩, rfl,
      ⟨gap_nil, hgap⟩, spells_written _, rfl⟩
  have hdigits : Digits "1".toList ∧ Digits "999".toList := by simp [Digits]
  have hnumber : NumberText "1e999".toList :=
    ⟨[], by simp, "1".toList, [], "e999".toList, by decide, .inr ⟨hdigits.1, by decide⟩, .inl rfl,
      .inr ⟨'e', by simp, [], by simp, "999".toList, by decide, hdigits.2⟩⟩
  have hunknown : ValueText "[1e999]".toList :=
    @ValueText.array ["1e999".toList] _ (by simpa using .number hnumber)
      (.cons gap_nil (.nil gap_nil))
  have hform : PartialForm.IsText ⟨none, none, some 7⟩ "\x7b\"seed\": 7\x7d".toList :=
    @PartialForm.IsText.object _ [("seed", ['7'])] _
      ⟨⟨by decide, by simp⟩, .absent (by decide), .absent (by decide),
        .given List.mem_cons_self rfl⟩
      ⟨_, _, by decide, .cons (hplain "seed" [' '] ['7'] (by decide)) .nil,
        .cons gap_nil (.nil gap_nil)⟩
  have hstrategy : Strategy.projected.IsText "\"projected\"".toList :=
    @Strategy.IsText.name .projected ("projected".toList.flatMap escapedChar) (spells_written _)
  have hmixed : Mixed ["strategy", "threshold", "topK", "projection"] sampleMembers :=
    ⟨by decide, by simpa [sampleMembers] using hunknown⟩
  have hgiven : PartialSettings.Given
      ⟨some .projected, none, some none, some (some ⟨none, none, some 7⟩)⟩ sampleMembers :=
    ⟨hmixed, .given (by decide) hstrategy, .absent (by decide), .given (by decide) .null,
      .given (by decide) (.value hform)⟩
  have hs : Hex ['0', '0', '7', '3'] 0x73 :=
    @Hex.digits _ _ _ _ 0 0 7 3 (by decide) (by decide) (by decide) (by decide)
  have hlast : IsMember ("strategy", "\"projected\"".toList)
      "\"\\u0073trategy\":\"projected\"".toList :=
    ⟨⟨"\\u0073trategy".toList, [], [], "\"projected\"".toList⟩, by decide, ⟨gap_nil, gap_nil⟩,
      .numbered hs (by decide) (spells_written "trategy".toList), rfl⟩
  have hmembers := List.Forall₂.cons (hplain "x" [] "[1e999]".toList gap_nil)
    (.cons (hplain "topK" [] "null".toList gap_nil)
      (.cons (hplain "projection" [' '] "\x7b\"seed\": 7\x7d".toList (by decide))
        (.cons hlast .nil)))
  have hobject : IsObject sampleMembers sampleText :=
    ⟨[], _, [' '], by decide, gap_nil, by decide, _, _, rfl, hmembers, .cons gap_nil
      (@Continued.cons _ [] ['\n'] _ _ _ gap_nil (by decide)
        (@Continued.cons _ [] [' '] _ _ _ gap_nil (by decide)
          (.cons gap_nil gap_nil (.nil gap_nil))))⟩
  exact ⟨⟨hgiven, .refl _, hobject⟩, decode_members hgiven _ _ (.refl _) hobject⟩

end Settings

end SchemaMatch

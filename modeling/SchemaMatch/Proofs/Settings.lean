import SchemaMatch.Proofs.Json.Collections
import SchemaMatch.Settings

/-!
# Settings are read as they were written

What is written and what is read have different forms: written are all settings of a matcher, and
read are those that a text gives (`GivenSettings`), which are then completed from the preset of
their strategy. Nothing is lost between the two, because every setting that has a preset is always
written (`MatchingSettings.reads_decoder`), a missing number of candidates as `null`. Only texts
that are absent are left out (`Record.Fills.optionalMember`), and by themselves they are absent.

The threshold is to be finite and to be read from its own text as the same number. Nothing is asked
of anything else.
-/

namespace SchemaMatch

open Json Reader

variable {form : Spacing} {depth levels : Nat}

/-! ## Values that may be absent -/

section Absence

variable {α : Type} {decoder : Decoder α} {value : α}

/-- A value that may be absent is read if it begins with another character than `null` does. -/
theorem Json.Decoder.reads_optional_cons {c : Char} {text : List Char}
    (h : (decoder levels).Reads (c :: text) value) (hascii : c.toNat < 0x80) (hc : c ≠ 'n') :
    (Decoder.optional decoder levels).Reads (c :: text) (some value) := by
  refine Decoder.reads_optional_some h ?_
  rw [Text.encoded_cons_of_ascii hascii, List.head?_cons, ne_eq, Option.some_inj,
    Text.ofChar_inj hascii (by decide)]
  exact hc

theorem Json.Decoder.reads_optional_object {members : List (String × Value)}
    (h : (decoder levels).Reads ((Value.object members).chars form depth) value) :
    (Decoder.optional decoder levels).Reads ((Value.object members).chars form depth)
      (some value) := by
  rw [Value.chars, Spacing.enclose_eq] at h ⊢
  exact Decoder.reads_optional_cons h (by decide) (by decide)

theorem Json.Decoder.reads_optional_string (text : String) :
    (Decoder.optional Decoder.string levels).Reads (stringChars text) (some text) :=
  Decoder.reads_optional_cons (Decoder.reads_string levels text) (by decide) (by decide)

/-- A field whose text may be absent is filled, or it is left out and keeps the absence it has. -/
theorem Json.Record.Fills.optionalMember {τ : Type} {later : List (Field τ)} {name : String}
    {store : τ → Option String → τ} {r final : τ} {members : List (String × Value)}
    {text : Option String} (hnone : store r none = r)
    (hlater : Record.Fills form depth levels later (store r text) members final) :
    Record.Fills form depth levels
      (Record.field name .defaulted (Decoder.optional Decoder.string) store :: later) r
      (ProviderSettings.optionalMember name text ++ members) final := by
  cases text with
  | none => exact .skip nofun (hnone ▸ hlater)
  | some text => exact .cons ((Decoder.reads_optional_string text).map _) hlater

end Absence

/-! ## Settings of matchers -/

theorem ProjectionForm.reads_decoder (h : form.Blank) (c : ProjectionForm) :
    (ProjectionForm.record.decoder (levels + 2)).Reads (c.toJson.chars form depth) c := by
  have hhidden : List.Forall₂ (Decoder.natural "usize" levels).Reads
      (itemChars form (depth + 2) (c.hidden.map .ofNatural)) c.hidden := by
    rw [itemChars_eq_map, List.map_map, List.forall₂_map_left_iff, List.forall₂_same]
    exact fun n _ => Decoder.reads_natural "usize" levels n
  exact ProjectionForm.record.reads_decoder h (by decide)
    (.cons ((Decoder.reads_list_written h hhidden).map _)
      (.cons ((Decoder.reads_natural _ _ c.output).map _)
        (.cons ((Decoder.reads_natural _ _ c.seed).map _) .nil)))

theorem TopK.reads_decoder (k : TopK) :
    (TopK.decoder levels).Reads (k.toJson.chars form depth) k :=
  (Decoder.reads_natural _ _ k.val).bind (dif_pos k.property)

/-- A missing number of candidates is given, as `null`. -/
theorem TopK.reads_optional (k : Option TopK) :
    (Decoder.optional TopK.decoder levels).Reads
      ((Value.ofOption TopK.toJson k).chars form depth) k := by
  cases k with
  | none => exact Decoder.reads_optional_null _ _
  | some k =>
    exact Decoder.reads_optional_some k.reads_decoder (Decoder.readable_natural k.val).head?_ne

theorem Strategy.reads_decoder (s : Strategy) :
    (Strategy.decoder levels).Reads (s.toJson.chars form depth) s :=
  Decoder.reads_named (by cases s <;> rfl) (spells_written _) levels

/-- Every setting is given, so that nothing is taken from a preset. -/
theorem MatchingSettings.reads_decoder (h : form.Blank) {c : MatchingSettings}
    (hfinite : c.threshold.isFinite = true) (hback : ReadsBack c.threshold) :
    (MatchingSettings.decoder (levels + 3)).Reads (c.toJson.chars form depth) c := by
  -- A finite number does not begin as `null` does.
  have hthreshold := Decoder.reads_optional_some (Decoder.reads_double (levels + 2) hfinite hback)
    (Number.readable_double hfinite hback).head?_ne
  have hgiven : (GivenSettings.record.decoder (levels + 3)).Reads (c.toJson.chars form depth)
      ⟨c.strategy, some c.threshold, some c.topK, some c.projection⟩ :=
    GivenSettings.record.reads_decoder h (by decide)
      (.cons (c.strategy.reads_decoder.map _)
        (.cons (hthreshold.map _)
          (.cons ((TopK.reads_optional c.topK).map _)
            (.cons ((Decoder.reads_optional_object (c.projection.reads_decoder h)).map _) .nil))))
  exact hgiven.map ofPartial

/-! ## Settings of providers -/

theorem ProviderKind.reads_decoder (k : ProviderKind) :
    (ProviderKind.decoder levels).Reads (k.toJson.chars form depth) k :=
  Decoder.reads_named (by cases k <;> rfl) (spells_written _) levels

theorem Device.reads_decoder (d : Device) :
    (Device.decoder levels).Reads (d.toJson.chars form depth) d :=
  Decoder.reads_named (by cases d <;> rfl) (spells_written _) levels

theorem Dialect.reads_decoder (d : Dialect) :
    (Dialect.decoder levels).Reads (d.toJson.chars form depth) d :=
  Decoder.reads_named (by cases d <;> rfl) (spells_written _) levels

theorem ProviderSettings.reads_decoder (h : form.Blank) (c : ProviderSettings) :
    (ProviderSettings.record.decoder (levels + 1)).Reads (c.toJson.chars form depth) c := by
  rw [ProviderSettings.toJson]
  -- The members that may be left out stand between others, one after the other.
  simp only [List.append_assoc, List.cons_append, List.nil_append]
  exact ProviderSettings.record.reads_decoder h (by decide)
    (.cons (c.kind.reads_decoder.map _)
      (.cons ((Decoder.reads_string _ c.model).map _)
        (.cons (c.device.reads_decoder.map _)
          (.cons ((Decoder.reads_natural _ _ c.dimension).map _)
            (.optionalMember rfl
              (.cons (c.format.reads_decoder.map _)
                (.optionalMember rfl
                  (.cons ((Decoder.reads_natural _ _ c.timeoutSecs).map _) .nil))))))))

/-! ## All settings -/

namespace Settings

variable {c : Settings}

theorem reads_decoder (h : form.Blank) (hfinite : c.matching.threshold.isFinite = true)
    (hback : ReadsBack c.matching.threshold) :
    (record.decoder (levels + 4)).Reads (c.toJson.chars form depth) c :=
  record.reads_decoder h (by decide)
    (.cons ((c.provider.reads_decoder h).map _)
      (.cons ((MatchingSettings.reads_decoder h hfinite hback).map _) .nil))

theorem ofText?_chars (h : form.Blank) (hfinite : c.matching.threshold.isFinite = true)
    (hback : ReadsBack c.matching.threshold) :
    ofText? (String.ofList (c.toJson.chars form 0)) = .ok c := by
  rw [ofText?, Text.bytes_ofList, Decoder.decode_encoded (reads_decoder h hfinite hback)]
  rfl

/-- Settings are read from any text that is written of them, on one line or on many, as the same
    settings, and so they are from a file of that text. -/
theorem ofText_written (c : Settings) (hfinite : c.matching.threshold.isFinite = true)
    (hback : ReadsBack c.matching.threshold) :
    ∀ text ∈ [c.toJson.compact, c.toJson.indented],
      ofText text = .ok c ∧ ∀ path, ofFile path (.ok (Text.bytes text)) = .ok c := by
  have hread : ∀ text, ofText? text = .ok c →
      ofText text = .ok c ∧ ∀ path, ofFile path (.ok (Text.bytes text)) = .ok c := by
    intro text h
    refine ⟨by rw [ofText, h]; rfl, fun path => ?_⟩
    simp [ofFile, Except.mapError, Text.ofBytes?_bytes, h, Except.bind, bind]
  have hcompact := ofText?_chars blank_compact hfinite hback
  have hindented := ofText?_chars blank_indented hfinite hback
  intro text htext
  rcases List.mem_cons.1 htext with rfl | htext
  · exact hread _ hcompact
  · rcases List.mem_singleton.1 htext with rfl
    exact hread _ hindented

/-- Settings of which everything is absent that may be, and of which the threshold is that of the
    preset of the other strategy. -/
def sparse : Settings where
  provider := { ProviderSettings.standard with model := "a \"b\"\n\u0085" }
  matching := ⟨.projected, 0.75, none, ⟨[], 0, 0⟩⟩

theorem ofText_written_sparse :
    (sparse.matching.threshold.isFinite = true ∧ ReadsBack sparse.matching.threshold) ∧
      ∀ text ∈ [sparse.toJson.compact, sparse.toJson.indented],
        ofText text = .ok sparse ∧ ∀ path, ofFile path (.ok (Text.bytes text)) = .ok sparse := by
  have hfinite : sparse.matching.threshold.isFinite = true := by decide +kernel
  have hback : ReadsBack sparse.matching.threshold := by decide +kernel
  exact ⟨⟨hfinite, hback⟩, ofText_written sparse hfinite hback⟩

end Settings

end SchemaMatch

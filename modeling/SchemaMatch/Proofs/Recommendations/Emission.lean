import SchemaMatch.Proofs.Json.RoundTrip
import SchemaMatch.Proofs.Table
import SchemaMatch.Recommendations

/-!
# What is written of recommendations

Recommendations come about by changes, of which each adds a field under a name or leaves each field
its best score (`Recommendations.ofChanges`). However they came about, nothing is lost when they are
written: both texts are read as one object with the names in the order in which they were first
added, none of them twice, and with every field and score in its place. The texts differ in white
space only: `Recommendations.emitted_ofChanges`.

This is so if the scores are finite and are read from their texts as they were. A score that is not
finite has no text of its own.
-/

namespace SchemaMatch

open Json

namespace Recommendations

/-! ## Changes -/

/-- A change of recommendations. -/
inductive Change
  /-- A field is added under an API name. -/
  | push (api field : String) (score : Float)
  /-- Each field is left its greatest score. -/
  | keepBest

/-- The recommendations after a change. -/
def Change.apply (rs : Recommendations) : Change → Recommendations
  | .push api field score => rs.push api field score
  | .keepBest => rs.keepBest

/-- The API name under which a change adds a field. -/
def Change.api? : Change → Option String
  | .push api _ _ => some api
  | .keepBest => none

/-- The recommendations that some changes amount to, one after the other. -/
def ofChanges (changes : List Change) : Recommendations :=
  changes.foldl Change.apply Table.empty

theorem ofChanges_append_singleton (changes : List Change) (change : Change) :
    ofChanges (changes ++ [change]) = change.apply (ofChanges changes) :=
  List.foldl_append

/-- A change adds its name, unless it was added before. -/
theorem names_apply {rs : Recommendations} {added : List String} (h : rs.names = added.eraseDups)
    (change : Change) :
    (change.apply rs).names = (added ++ change.api?.toList).eraseDups := by
  cases change with
  | push api field score => exact Table.names_change_eraseDups h api _
  | keepBest => simpa [Change.apply, Change.api?, keepBest] using h

/-- The names are in the order in which they were first added. -/
theorem names_ofChanges (changes : List Change) :
    (ofChanges changes).names = (changes.filterMap Change.api?).eraseDups := by
  induction changes using List.reverseRecOn with
  | nil => rfl
  | append_singleton changes change ih =>
    have hadded : (changes ++ [change]).filterMap Change.api? =
        changes.filterMap Change.api? ++ change.api?.toList := by
      cases h : change.api? <;> simp [h]
    rw [hadded, ofChanges_append_singleton]
    exact names_apply ih change

/-! ## Texts -/

/-- Whether all scores are finite and are read from their texts as they were. -/
def ScoresReadBack (rs : Recommendations) : Prop :=
  ∀ entry ∈ rs.entries, ∀ r ∈ entry.2, r.score.isFinite = true ∧ ReadsBack r.score

instance (rs : Recommendations) : Decidable rs.ScoresReadBack :=
  inferInstanceAs (Decidable (∀ entry ∈ rs.entries, ∀ r ∈ entry.2, _))

theorem readable_toJson {rs : Recommendations} (h : rs.ScoresReadBack) :
    rs.toJson.Readable depthLimit := by
  refine .object fun entry hentry => ?_
  obtain ⟨held, hheld, rfl⟩ := List.mem_map.1 hentry
  refine .array fun item hitem => ?_
  obtain ⟨r, hr, rfl⟩ := List.mem_map.1 hitem
  obtain ⟨hfinite, hback⟩ := h held hheld r hr
  refine .object fun part hpart => ?_
  simp only [List.mem_cons, List.not_mem_nil, or_false] at hpart
  rcases hpart with rfl | rfl
  · exact .string r.field
  · exact .number (Number.readable_double hfinite hback)

/-! ## Writing -/

/-- What is written of recommendations, if there is room. -/
def written (rs : Recommendations) : List UInt8 :=
  Text.bytes (rs.indented ++ "\n")

theorem written_eq (rs : Recommendations) : rs.written = Text.bytes rs.indented ++ [0x0A] := by
  rw [written, Text.bytes_eq_encoded, String.toList_append, Text.encoded_append,
    ← Text.bytes_eq_encoded]
  rfl

/-- The indented text is written with a line feed behind it, as far as there is room, and this
    succeeds if there is room for all of it and the sink accepts the end. -/
theorem write_spec (rs : Recommendations) (sink : Sink) :
    (rs.write sink).2 = sink.capacity.elim rs.written rs.written.take ∧
      ((rs.write sink).1 = .ok () ↔
        (∀ capacity ∈ sink.capacity, rs.written.length ≤ capacity) ∧ sink.flushes = true) := by
  have hfinish : sink.flush.mapError Error.io = .ok () ↔ sink.flushes = true := by
    rw [Sink.flush]
    split <;> simp_all [Except.mapError]
  have hlength : rs.written.length = (Text.bytes rs.indented).length + 1 := by
    rw [written_eq, List.length_append, List.length_singleton]
  simp only [write, ← written_eq]
  cases sink.capacity with
  | none => simp [hfinish]
  | some capacity =>
    dsimp only
    split
    · have hshort : ¬rs.written.length ≤ capacity := by omega
      simp [hshort]
    · split
      · have hshort : ¬rs.written.length ≤ capacity := by omega
        simp [hshort]
      · next hall =>
        have hroom := Nat.not_lt.1 hall
        simp [hfinish, hroom, List.take_of_length_le hroom]

/-- Writing fails for what could not be written first: the text, the line feed behind it, or the
    end. -/
theorem write_eq_error_iff (rs : Recommendations) (sink : Sink) (e : Error) :
    (rs.write sink).1 = .error e ↔
      (∃ capacity ∈ sink.capacity, capacity < (Text.bytes rs.indented).length ∧
        e = .serialization sink.fullFault.message) ∨
      (sink.capacity = some (Text.bytes rs.indented).length ∧ e = .io sink.fullFault) ∨
      ((∀ capacity ∈ sink.capacity, rs.written.length ≤ capacity) ∧ sink.flushes = false ∧
        e = .io sink.flushFault) := by
  have hfinish : sink.flush.mapError Error.io = .error e ↔
      sink.flushes = false ∧ e = .io sink.flushFault := by
    rw [Sink.flush]
    cases sink.flushes <;> simp [Except.mapError, @eq_comm _ e]
  have hlength : rs.written.length = (Text.bytes rs.indented).length + 1 := by
    rw [written_eq, List.length_append, List.length_singleton]
  simp only [write, ← written_eq]
  cases sink.capacity with
  | none => simp [hfinish]
  | some capacity =>
    simp only [Option.mem_def, Option.some.injEq, exists_eq_left', forall_eq']
    split
    · next hfew =>
      have hneither : ¬rs.written.length ≤ capacity ∧
          capacity ≠ (Text.bytes rs.indented).length := by omega
      simp [hfew, hneither, @eq_comm _ e]
    · next hmany =>
      split
      · obtain rfl : capacity = (Text.bytes rs.indented).length := by omega
        have hshort : ¬rs.written.length ≤ (Text.bytes rs.indented).length := by omega
        simp [hshort, @eq_comm _ e]
      · have hroom : rs.written.length ≤ capacity ∧
            capacity ≠ (Text.bytes rs.indented).length := by omega
        simp [hmany, hroom, hfinish]

/-! ## Emission -/

/-- However recommendations came about, both of their texts are read as the object with their names
    in the order in which they were first added, none of them twice, and under each of them its
    fields and scores in order. The texts differ only in white space outside of strings, of which
    the compact one has none. The indented one is written with a line feed behind it. -/
theorem emitted_ofChanges (changes : List Change) (h : (ofChanges changes).ScoresReadBack) :
    let rs := ofChanges changes
    let object := Value.object (rs.entries.map fun entry => (entry.1, .array (entry.2.map fun r =>
      .object [("field", .string r.field), ("score", .number (.double r.score))])))
    (rs.names = (changes.filterMap Change.api?).eraseDups ∧ rs.names.Nodup) ∧
      (Decoder.value.decode (Text.bytes rs.compact) = .ok object ∧
        Decoder.value.decode (Text.bytes rs.indented) = .ok object) ∧
      (unspaced rs.indented.toList = rs.compact.toList ∧
        unspaced rs.compact.toList = rs.compact.toList) ∧
      ∀ sink : Sink, (rs.write sink).2 = sink.capacity.elim rs.written rs.written.take ∧
        ((rs.write sink).1 = .ok () ↔
          (∀ capacity ∈ sink.capacity, rs.written.length ≤ capacity) ∧ sink.flushes = true) := by
  intro rs object
  have hreadable := readable_toJson h
  refine ⟨⟨names_ofChanges changes, rs.nodup_names⟩, ⟨?_, ?_⟩, ⟨?_, ?_⟩, rs.write_spec⟩
  · exact hreadable.decode blank_compact
  · exact hreadable.decode blank_indented
  · rw [indented, Value.indented, String.toList_ofList]
    exact Value.unspaced_chars blank_indented _
  · have hcompact := Value.unspaced_chars blank_compact rs.toJson
    rw [Value.compact, String.toList_ofList] at hcompact
    rwa [compact, Value.compact, String.toList_ofList]

/-- A name with a quote and a line feed, a name beyond ASCII, and a field that comes twice. -/
theorem emitted_odd_names :
    let rs := ofChanges [.push "List \"odd\"\n" "a.b" 0.5, .push "π" "mail" (-0.25),
      .push "List \"odd\"\n" "a.b" 0.75, .keepBest]
    rs.ScoresReadBack ∧ rs.names = ["List \"odd\"\n", "π"] ∧
      Decoder.value.decode (Text.bytes rs.indented) = .ok (.object
        [("List \"odd\"\n", .array
            [.object [("field", .string "a.b"), ("score", .number (.double 0.75))]]),
          ("π", .array
            [.object [("field", .string "mail"), ("score", .number (.double (-0.25)))]])]) := by
  intro rs
  have hscores : rs.ScoresReadBack := by decide +kernel
  have hemitted := emitted_ofChanges _ hscores
  have hentries : rs.entries = [("List \"odd\"\n", [⟨"a.b", 0.75⟩]), ("π", [⟨"mail", -0.25⟩])] := by
    rfl
  refine ⟨hscores, by decide +kernel, ?_⟩
  have hread := hemitted.2.1.2
  rw [hentries] at hread
  exact hread

end Recommendations

end SchemaMatch

import SchemaMatch.Proofs.Payload
import SchemaMatch.Proofs.Table.Indexed

/-!
# Schemas keep the order of insertion

A schema comes about by descriptions that are inserted one after the other, be it into an empty one,
from a list, or while an object is read. Reading an object does nothing else: the descriptions of
the text are put, in their order, into whatever holds them (`Schema.reader_equiv_map`).

However it came about, a schema with an index has every name once, at the place of its first
insertion and with the description of its last one, and the index has exactly these places. So
schemas with the same entries, which are equal, do not differ in what is looked up either:
`Schema.ordered_of_inserted`.
-/

namespace SchemaMatch.Schema

open Json Reader

variable {σ : Type}

/-! ## Reading -/

/-- Reads an object of descriptions as the list of all of them, in the order of the text. -/
def described : Decoder (List (String × String)) :=
  reader (fun earlier name description => earlier ++ [(name, description)]) []

/-- What holds the descriptions makes no difference to how they are read. -/
theorem reader_equiv_map {put : σ → String → String → σ} {gather : List (String × String) → σ}
    (hput : ∀ earlier name description,
      gather (earlier ++ [(name, description)]) = put (gather earlier) name description)
    (depth : Nat) : reader put (gather []) depth ≈ gather <$> described depth := by
  have hmember : ∀ earlier name, memberInto put (gather earlier) name =
      gather <$> memberInto (fun earlier name description => earlier ++ [(name, description)])
        earlier name := by
    intro earlier name
    simp [memberInto, hput]
  simp only [described, reader, map_bind, map_ite, map_nested, map_mismatch]
  exact bind_equiv _ fun byte =>
    ite_equiv (nested_equiv (fun _ => members_map hmember []) depth) (Setoid.refl _)

theorem decoder_equiv_map (depth : Nat) : decoder depth ≈ Table.ofList <$> described depth := by
  rw [decoder_eq_reader]
  exact reader_equiv_map (fun earlier name description =>
    Table.ofList_append_singleton earlier (name, description)) depth

/-- The descriptions of a text are read in their order, those of one name as well. -/
theorem described_compact (entries : List (String × String)) :
    described.decode (Text.bytes (spelled entries).compact) = .ok entries := by
  have happend : ∀ earlier : List (String × String),
      entries.foldl (fun earlier entry => earlier ++ [(entry.1, entry.2)]) earlier =
        earlier ++ entries := by
    induction entries with
    | nil => simp
    | cons entry later ih => simp [ih]
  rw [Value.compact, Text.bytes_ofList]
  have hreads : (described depthLimit).Reads ((spelled entries).chars compact 0)
      (entries.foldl (fun earlier entry => earlier ++ [(entry.1, entry.2)]) []) :=
    reads_reader blank_compact _ entries []
  rw [happend, List.nil_append] at hreads
  exact Decoder.decode_encoded hreads

theorem reader_insert_equiv_map (capacity depth : Nat) :
    reader (fun t name description => t.bind (·.insert name description))
        (some (.withCapacity capacity)) depth ≈
      IndexedTable.ofList capacity <$> described depth := by
  have hstart : (IndexedTable.ofList capacity [] : Option (IndexedTable String)) =
      some (.withCapacity capacity) := rfl
  rw [← hstart]
  exact reader_equiv_map (fun earlier name description =>
    IndexedTable.ofList_append_singleton capacity earlier (name, description)) depth

/-! ## Insertion -/

/-- Inserting descriptions into an empty schema always succeeds, and leaves each name once, in the
    order of first insertion, with the place that the index has for it and with its last
    description. Equality is that of the entries, and with these all that is looked up is the same.
    Reading an object, well-formed or not, is inserting the descriptions that it has, in their
    order: those that were spelled, where the text is that of descriptions under names. -/
theorem ordered_of_inserted :
    (∀ (capacity : Nat) (inserted : List (String × String)),
      ∃ t, IndexedTable.ofList capacity inserted = some t ∧ t.Represents (.ofList inserted) ∧
        (t.names.Nodup ∧ t.names = (inserted.map (·.1)).eraseDups) ∧
        (∀ (name : String) (place : Nat),
          t.index[name]? = some place ↔ t.names[place]? = some name) ∧
        (∀ name, t.get? name = (Table.ofList inserted).get? name ∧
          t.get? name = inserted.reverse.lookup name ∧
          (t.get? name = none ↔ name ∉ inserted.map (·.1))) ∧
        (∀ (place : Nat) (name description : String),
          t.entries[place]? = some (name, description) ↔
            t.names[place]? = some name ∧ t.get? name = some description) ∧
        t.names.map t.get? = t.values.map some ∧
        t.names.length = t.size ∧ t.values.length = t.size) ∧
      (∀ (capacity capacity' : Nat) (inserted inserted' : List (String × String)),
        ∃ s t, IndexedTable.ofList capacity inserted = some s ∧
          IndexedTable.ofList capacity' inserted' = some t ∧
          (s == t) = (Table.ofList inserted == Table.ofList inserted') ∧
          ((s == t) = true ↔ s.entries = t.entries) ∧
          ((s == t) = true → ∀ name, s.get? name = t.get? name)) ∧
      (∀ capacity depth,
        reader (fun t name description => t.bind (·.insert name description))
            (some (.withCapacity capacity)) depth ≈
          IndexedTable.ofList capacity <$> described depth ∧
        decoder depth ≈ Table.ofList <$> described depth) ∧
      ∀ entries, described.decode (Text.bytes (spelled entries).compact) = .ok entries := by
  refine ⟨fun capacity inserted => ?_, fun capacity capacity' inserted inserted' => ?_,
    fun capacity depth => ⟨reader_insert_equiv_map capacity depth, decoder_equiv_map depth⟩,
    described_compact⟩
  · obtain ⟨t, ht, hrep⟩ := IndexedTable.exists_ofList capacity inserted
    refine ⟨t, ht, hrep, ⟨hrep.nodup_names, ?_⟩, fun _ _ => hrep.index_eq_some_iff,
      fun name => ⟨hrep.get?_eq name, ?_, ?_⟩, fun place name description => ?_,
      hrep.map_get?_names, List.length_map _, List.length_map _⟩
    · rw [hrep.names_eq, Table.names_ofList]
    · rw [hrep.get?_eq, Table.get?_ofList]
    · rw [hrep.get?_eq, Table.get?_eq_none_iff, Table.names_ofList, List.mem_eraseDups]
    · rw [hrep.entries_eq, hrep.names_eq, hrep.get?_eq, Table.getElem?_entries_eq_some_iff]
  · obtain ⟨s, hs, hrep⟩ := IndexedTable.exists_ofList capacity inserted
    obtain ⟨t, ht, hrep'⟩ := IndexedTable.exists_ofList capacity' inserted'
    exact ⟨s, t, hs, ht, hrep.beq_eq hrep', IndexedTable.beq_iff,
      fun heq => hrep.get?_eq_of_entries_eq hrep' (IndexedTable.beq_iff.1 heq)⟩

end SchemaMatch.Schema

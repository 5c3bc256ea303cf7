import SchemaMatch.Proofs.Recommendations.Emission
import SchemaMatch.Proofs.Recommendations.Grouping
import SchemaMatch.Proofs.Table.Indexed

/-!
# Recommendations with an index

Recommendations are kept with an index of the places of their names (`IndexedRecommendations`).
Leaving each field its greatest score makes every list anew, with an index of its own for the fields
that it has so far, and leaves the index of the names as it is.

Whatever changes are made one after the other, none of them fails, and what they amount to is what
they amount to without an index. So the names are distinct and in the order in which they were first
added, the index has exactly their places, and no name is without a field:
`Recommendations.exists_ofChanges_indexed`.
-/

namespace SchemaMatch

/-- The fields recommended for each API name, with an index of the names. -/
abbrev IndexedRecommendations := IndexedTable (List Recommendation)

namespace IndexedRecommendations

/-- Adds a field under an API name, at the end. -/
def push (t : IndexedRecommendations) (api field : String) (score : Float) :
    Option IndexedRecommendations :=
  t.change api fun held => held.getD [] ++ [⟨field, score⟩]

/-- The greater one of a score and the one that a field has, if it has one. -/
def raised (score : Float) : Option Float → Float
  | none => score
  | some held => if held < score then score else held

/-- The scores of the distinct fields of a list, each at its first place and the greatest one, by an
    index of the fields so far. -/
def bestScores (capacity : Nat) (entries : List Recommendation) : Option (IndexedTable Float) :=
  entries.foldlM (fun kept r => kept.change r.field (raised r.score)) (.withCapacity capacity)

/-- The distinct fields of a list, each at its first place with its greatest score. -/
def bestOfEachField (entries : List Recommendation) : Option (List Recommendation) :=
  (bestScores entries.length entries).map fun kept =>
    kept.entries.map fun entry => ⟨entry.1, entry.2⟩

/-- Leaves each field once under each name, with its greatest score. -/
def keepBest (t : IndexedRecommendations) : Option IndexedRecommendations :=
  (t.entries.mapM fun entry => (bestOfEachField entry.2).map (entry.1, ·)).map
    fun entries => { t with entries }

/-- The number of fields under all names. -/
def totalEntries (t : IndexedRecommendations) : Nat := (t.values.map List.length).sum

end IndexedRecommendations

namespace Recommendations

/-! ## Leaving each field its greatest score -/

/-- The score of a field in a list is raised as the list says. -/
theorem changeEntry_raised (r : Recommendation) (kept : List Recommendation) :
    changeEntry r.field (IndexedRecommendations.raised r.score)
        (kept.map fun held => (held.field, held.score)) =
      (raise r kept).map fun held => (held.field, held.score) := by
  induction kept with
  | nil => rfl
  | cons first later ih =>
    rw [List.map_cons, changeEntry, raise]
    by_cases h : first.field = r.field
    · rw [if_pos h, if_pos h, List.map_cons, IndexedRecommendations.raised]
      split <;> rfl
    · rw [if_neg h, if_neg h, List.map_cons, ih]

/-- Whether an indexed table has the scores of some fields, in their order. -/
def HasScores (t : IndexedTable Float) (kept : List Recommendation) : Prop :=
  ∃ table, t.Represents table ∧ table.entries = kept.map fun held => (held.field, held.score)

theorem HasScores.exists_change {t : IndexedTable Float} {kept : List Recommendation}
    (h : HasScores t kept) (r : Recommendation) :
    ∃ t', t.change r.field (IndexedRecommendations.raised r.score) = some t' ∧
      HasScores t' (raise r kept) := by
  obtain ⟨table, hrep, hentries⟩ := h
  obtain ⟨t', ht', hrep'⟩ := hrep.exists_change r.field (IndexedRecommendations.raised r.score)
  refine ⟨t', ht', _, hrep', ?_⟩
  rw [← changeEntry_raised, ← hentries]
  rfl

theorem bestOfEachField_indexed (entries : List Recommendation) :
    IndexedRecommendations.bestOfEachField entries = some (bestOfEachField entries) := by
  have hstart : HasScores (.withCapacity entries.length) [] :=
    ⟨.empty, IndexedTable.represents_withCapacity _, rfl⟩
  obtain ⟨t, ht, table, hrep, hentries⟩ :=
    exists_foldlM_eq_some HasScores (fun _ _ r h => h.exists_change r) hstart entries
  rw [IndexedRecommendations.bestOfEachField, IndexedRecommendations.bestScores, ht,
    Option.map_some, hrep.entries_eq, hentries, List.map_map, bestOfEachField]
  simp [Function.comp_def]

/-! ## Changes -/

/-- The recommendations with an index after a change. -/
def Change.applyIndexed (t : IndexedRecommendations) : Change → Option IndexedRecommendations
  | .push api field score => IndexedRecommendations.push t api field score
  | .keepBest => IndexedRecommendations.keepBest t

/-- The recommendations with an index that some changes amount to, one after the other. -/
def ofChangesIndexed (changes : List Change) : Option IndexedRecommendations :=
  changes.foldlM Change.applyIndexed (.withCapacity 0)

/-- A change succeeds, and changes recommendations and their index together. -/
theorem exists_applyIndexed {t : IndexedRecommendations} {rs : Recommendations}
    (h : t.Represents rs) (change : Change) :
    ∃ t', change.applyIndexed t = some t' ∧ t'.Represents (change.apply rs) := by
  cases change with
  | push api field score => exact h.exists_change api fun held => held.getD [] ++ [⟨field, score⟩]
  | keepBest =>
    -- Every list is made anew, but no name is moved: the index still has the places.
    have hentries : (t.entries.mapM fun entry =>
        (IndexedRecommendations.bestOfEachField entry.2).map (entry.1, ·)) =
          some rs.keepBest.entries := by
      simp only [bestOfEachField_indexed, Option.map_some, h.entries_eq]
      exact List.mapM_pure
    rw [Change.applyIndexed, IndexedRecommendations.keepBest, hentries]
    exact ⟨_, rfl, rfl, fun name => by
      rw [h.index_eq, Change.apply, keepBest, Table.position?, Table.position?, Table.names_map]⟩

theorem exists_ofChangesIndexed (changes : List Change) :
    ∃ t, ofChangesIndexed changes = some t ∧ t.Represents (ofChanges changes) :=
  exists_foldlM_eq_some IndexedTable.Represents (fun _ _ change h => exists_applyIndexed h change)
    (IndexedTable.represents_withCapacity 0) changes

theorem occupied_ofChanges (changes : List Change) : (ofChanges changes).Occupied := by
  induction changes using List.reverseRecOn with
  | nil => exact fun _ => by simp [ofChanges, Table.get?, Table.empty]
  | append_singleton changes change ih =>
    rw [ofChanges_append_singleton]
    cases change with
    | push api field score => exact ih.push api field score
    | keepBest => exact ih.keepBest

theorem totalEntries_eq_sum (rs : Recommendations) :
    rs.totalEntries = (rs.values.map List.length).sum := by
  rw [totalEntries, List.sum_eq_foldl, List.foldl_map]

/-- What is found under the names is counted, each name once. -/
theorem totalEntries_eq_sum_map_get? {t : IndexedRecommendations} {rs : Recommendations}
    (h : t.Represents rs) :
    IndexedRecommendations.totalEntries t =
      (t.names.map fun name => (t.get? name).elim 0 List.length).sum := by
  have hfound := congrArg (List.map fun found => found.elim 0 List.length) h.map_get?_names
  rw [List.map_map, List.map_map] at hfound
  rw [IndexedRecommendations.totalEntries]
  exact congrArg List.sum hfound.symm

/-- Whatever changes are made, recommendations with an index have each name once, in the order in
    which the names were first added; the index has the place of each of them and of no other; and
    no name is without a field. So under a name is found what the one entry of the name has, and
    nothing if the name was never added; whether there is an entry, which names there are and how
    many fields they have all agree with that. -/
theorem exists_ofChanges_indexed (changes : List Change) :
    ∃ t, ofChangesIndexed changes = some t ∧ t.Represents (ofChanges changes) ∧
      (t.names.Nodup ∧ t.names = (changes.filterMap Change.api?).eraseDups) ∧
      (∀ (name : String) (place : Nat),
        t.index[name]? = some place ↔ t.names[place]? = some name) ∧
      (∀ entry ∈ t.entries, entry.2 ≠ []) ∧
      (∀ name, t.get? name = (ofChanges changes).get? name ∧
        (∀ held, t.get? name = some held ↔ (name, held) ∈ t.entries) ∧
        (t.get? name = none ↔ name ∉ changes.filterMap Change.api?) ∧
        t.contains name = (t.get? name).isSome ∧
        (name ∈ t.names ↔ (t.get? name).isSome)) ∧
      IndexedRecommendations.totalEntries t = (ofChanges changes).totalEntries ∧
      IndexedRecommendations.totalEntries t =
        (t.names.map fun name => (t.get? name).elim 0 List.length).sum := by
  obtain ⟨t, ht, hrep⟩ := exists_ofChangesIndexed changes
  refine ⟨t, ht, hrep, ⟨hrep.nodup_names, ?_⟩, fun _ _ => hrep.index_eq_some_iff,
    fun entry hentry hempty => ?_,
    fun name => ⟨hrep.get?_eq name, fun held => ?_, ?_, hrep.contains_eq name, ?_⟩, ?_,
    totalEntries_eq_sum_map_get? hrep⟩
  · rw [hrep.names_eq, names_ofChanges]
  · rw [hrep.entries_eq] at hentry
    have hget := Table.mem_entries_iff.1 hentry
    rw [hempty] at hget
    exact occupied_ofChanges changes _ hget
  · rw [hrep.get?_eq, hrep.entries_eq, Table.mem_entries_iff]
  · rw [hrep.get?_eq, Table.get?_eq_none_iff, names_ofChanges, List.mem_eraseDups]
  · rw [hrep.get?_eq, hrep.names_eq, Table.isSome_get?_iff]
  · rw [IndexedRecommendations.totalEntries, hrep.values_eq, totalEntries_eq_sum]

end Recommendations

end SchemaMatch

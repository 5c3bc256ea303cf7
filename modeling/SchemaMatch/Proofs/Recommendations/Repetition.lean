import SchemaMatch.Proofs.Recommendations.Emission
import SchemaMatch.Proofs.Recommendations.Grouping

/-!
# Leaving each field its greatest score early and late

A list in which every field comes once is left as it is (`bestOfEachField_of_nodup`), and this is
what any list is made into. So a list may be shortened before others are appended to it, and nothing
of what it comes to at the end is changed: `bestOfEachField_bestOfEachField_append`. Scores that are
not numbers make no difference here: what is kept of a list goes on being compared with what follows
as if the list had been gone through without a stop.

Recommendations that end with `keepBest` are therefore those of their additions alone, with one
`keepBest` at the end: `Recommendations.ofChanges_keepBest`.
-/

namespace SchemaMatch.Recommendations

variable {name : String}

/-! ## Lists -/

/-- Where every field comes once, all is kept. -/
theorem bestOfEachField_of_nodup {entries : List Recommendation}
    (h : (entries.map (·.field)).Nodup) : bestOfEachField entries = entries := by
  induction entries using List.reverseRecOn with
  | nil => rfl
  | append_singleton earlier r ih =>
    rw [List.map_append, List.map_singleton, List.nodup_append] at h
    obtain ⟨hearlier, -, hr⟩ := h
    have hnew : ∀ held ∈ earlier, held.field ≠ r.field := fun held hheld =>
      hr _ (List.mem_map_of_mem hheld) _ (by simp)
    have hlast := raise_append hnew []
    rw [List.append_nil] at hlast
    rw [bestOfEachField_append_singleton, ih hearlier, hlast, raise]

theorem bestOfEachField_bestOfEachField (entries : List Recommendation) :
    bestOfEachField (bestOfEachField entries) = bestOfEachField entries :=
  bestOfEachField_of_nodup (nodup_map_field_bestOfEachField entries)

/-- What is kept of a list may stand for it when others follow. -/
theorem bestOfEachField_bestOfEachField_append (earlier later : List Recommendation) :
    bestOfEachField (bestOfEachField earlier ++ later) = bestOfEachField (earlier ++ later) := by
  induction later using List.reverseRecOn with
  | nil => rw [List.append_nil, List.append_nil, bestOfEachField_bestOfEachField]
  | append_singleton later r ih =>
    rw [← List.append_assoc, ← List.append_assoc, bestOfEachField_append_singleton,
      bestOfEachField_append_singleton, ih]

/-! ## Runs -/

theorem keepBest_keepBest (rs : Recommendations) : rs.keepBest.keepBest = rs.keepBest := by
  refine Table.ext ?_
  simp only [keepBest, Table.map, List.map_map]
  exact List.map_congr_left fun entry _ => by simp [bestOfEachField_bestOfEachField]

/-- An addition may come before or after the fields were left their greatest scores, if they are so
    afterwards. -/
theorem keepBest_push_keepBest (rs : Recommendations) (api field : String) (score : Float) :
    (rs.keepBest.push api field score).keepBest = (rs.push api field score).keepBest := by
  refine Table.map_change_map bestOfEachField_bestOfEachField (fun held => ?_) rs api
  cases held with
  | none => rfl
  | some held => exact bestOfEachField_bestOfEachField_append held _

/-- The addition that a change is, as a hit. -/
def Change.hit? : Change → Option (String × Recommendation)
  | .push api field score => some (api, ⟨field, score⟩)
  | .keepBest => none

/-- Whether a change adds a field. -/
def Change.isPush (change : Change) : Bool := change.hit?.isSome

/-- The field that a change adds under a name. -/
def Change.fieldUnder? (name : String) : Change → Option String
  | .push api field _ => if api = name then some field else none
  | .keepBest => none

theorem keepBest_ofChanges (changes : List Change) :
    (ofChanges changes).keepBest = (collect (changes.filterMap Change.hit?)).keepBest := by
  induction changes using List.reverseRecOn with
  | nil => rfl
  | append_singleton changes change ih =>
    rw [ofChanges_append_singleton, List.filterMap_append]
    cases change with
    | push api field score =>
      have hhit : [Change.push api field score].filterMap Change.hit? =
          [(api, (⟨field, score⟩ : Recommendation))] := rfl
      rw [hhit, collect_append_singleton, Change.apply, ← keepBest_push_keepBest, ih,
        keepBest_push_keepBest]
    | keepBest =>
      have hhit : [Change.keepBest].filterMap Change.hit? = [] := rfl
      rw [hhit, List.append_nil, Change.apply, keepBest_keepBest, ih]

theorem hits_filter_isPush (changes : List Change) :
    (changes.filter Change.isPush).filterMap Change.hit? = changes.filterMap Change.hit? := by
  rw [List.filterMap_filter]
  refine List.filterMap_congr fun change _ => ?_
  cases change <;> rfl

/-- Whatever additions are made, and however often the fields are left their greatest scores in
    between: if this is done at the end, then once is enough. Under each name, the fields are then
    those that were added under it, each once and in the order in which they were first added. -/
theorem ofChanges_keepBest (changes : List Change) :
    ofChanges (changes ++ [.keepBest]) = ofChanges (changes.filter Change.isPush ++ [.keepBest]) ∧
      (∀ rs : Recommendations, rs.keepBest.keepBest = rs.keepBest) ∧
      ∀ name,
        let fields := ((ofChanges (changes ++ [.keepBest])).listed name).map (·.field)
        fields.Nodup ∧ fields = (changes.filterMap (Change.fieldUnder? name)).eraseDups := by
  have hlast : ∀ changes : List Change,
      ofChanges (changes ++ [.keepBest]) = (collect (changes.filterMap Change.hit?)).keepBest := by
    intro changes
    rw [← keepBest_ofChanges, ofChanges_append_singleton, Change.apply]
  refine ⟨by rw [hlast, hlast, hits_filter_isPush], keepBest_keepBest, fun name => ?_⟩
  have hadded : ((changes.filterMap Change.hit?).filter (·.1 = name)).map (·.2.field) =
      changes.filterMap (Change.fieldUnder? name) := by
    rw [List.filter_filterMap, List.map_filterMap]
    refine List.filterMap_congr fun change _ => ?_
    cases change with
    | push api field score => by_cases h : api = name <;> simp [Change.hit?, Change.fieldUnder?, h]
    | keepBest => rfl
  rw [hlast, listed_keepBest, listed_collect]
  refine ⟨nodup_map_field_bestOfEachField _, ?_⟩
  rw [map_field_bestOfEachField, List.map_map, ← hadded]
  rfl

end SchemaMatch.Recommendations

import SchemaMatch.Proofs.Matcher.Meaning

/-!
# Runs on two schemas

Where each text is embedded on its own, the fields of a schema do not interact: the rows of scores
for the fields of one schema, followed by those of another, are the rows for the one, followed by
the rows for the other (`zip_scores_append`). The API methods hold both to one dimension. So are the
recommendations under each name: `recommend_append`.
-/

namespace SchemaMatch

open Recommendations

variable {σ : Type} {apis : List Method}

/-! ## One schema after another -/

/-- The fields of a schema, followed by those of another. -/
def Schema.append (first second : Schema) : Schema := .ofList (first.entries ++ second.entries)

theorem Schema.entries_append {first second : Schema}
    (h : ∀ name ∈ first.names, name ∉ second.names) :
    (first.append second).entries = first.entries ++ second.entries := by
  refine Table.entries_ofList ?_
  rw [List.map_append]
  exact List.nodup_append.2 ⟨first.distinct, second.distinct, fun a ha b hb e => h a ha (e ▸ hb)⟩

theorem Schema.names_append {first second : Schema}
    (h : ∀ name ∈ first.names, name ∉ second.names) :
    (first.append second).names = first.names ++ second.names := by
  rw [Table.names, entries_append h, List.map_append]
  rfl

theorem Schema.values_append {first second : Schema}
    (h : ∀ name ∈ first.names, name ∉ second.names) :
    (first.append second).values = first.values ++ second.values := by
  rw [Table.values, entries_append h, List.map_append]
  rfl

/-! ## Rows of two schemas -/

section Append

variable {c : MatchingSettings} {first second : Schema} {fields fields' vectors : List Embedding}
  (hdisjoint : ∀ name ∈ first.names, name ∉ second.names)
  (h : Payload.Usable ⟨first, apis⟩ fields vectors)
  (h' : Payload.Usable ⟨second, apis⟩ fields' vectors)

include h in
theorem firstDimension_append :
    firstDimension (.ok (fields ++ fields')) = firstDimension (.ok fields) := by
  cases fields with
  | nil => exact absurd rfl h.fieldVectors_ne_nil
  | cons v later => rfl

include h h'

/-- The API methods have the dimension of the fields, and so two schemas that can be used with them
    have one dimension. -/
theorem firstDimension_eq_of_usable :
    firstDimension (.ok fields) = firstDimension (.ok fields') := by
  obtain ⟨v, hv⟩ := List.exists_mem_of_ne_nil vectors h.apiVectors_ne_nil
  rw [← (h.usable v (List.mem_append_right _ hv)).dimension_eq,
    ← (h'.usable v (List.mem_append_right _ hv)).dimension_eq]

/-- The rows of two schemas are those of one, followed by those of the other. -/
theorem MatchingSettings.scores_append :
    c.scores (fields ++ fields') vectors = c.scores fields vectors ++ c.scores fields' vectors := by
  rw [scores, scores, scores, firstDimension_append h, List.map_append,
    ← firstDimension_eq_of_usable h h']

include hdisjoint

/-- What can be used for each of two schemas can be used for both. -/
theorem Payload.usable_append :
    Payload.Usable ⟨first.append second, apis⟩ (fields ++ fields') vectors where
  fields_ne_nil := by
    rw [Schema.entries_append hdisjoint]
    exact List.append_ne_nil_of_left_ne_nil h.fields_ne_nil _
  apis_ne_nil := h.apis_ne_nil
  length_fields := by
    rw [List.length_append, h.length_fields, h'.length_fields, Schema.values_append hdisjoint,
      List.length_append]
  length_apis := h.length_apis
  usable := by
    intro v hv
    rw [firstDimension_append h]
    rw [List.append_assoc, List.mem_append] at hv
    rcases hv with hv | hv
    · exact h.usable v (List.mem_append_left _ hv)
    · rw [firstDimension_eq_of_usable h h']
      exact h'.usable v hv

namespace MatchingSettings

/-- The rows of two schemas, each with its field. -/
theorem zip_scores_append :
    (first.append second).names.zip (c.scores (fields ++ fields') vectors) =
      first.names.zip (c.scores fields vectors) ++ second.names.zip (c.scores fields' vectors) := by
  rw [Schema.names_append hdisjoint, scores_append h h', List.zip_append]
  exact (length_scores c h).symm

theorem listed_recommended_append (name : String) :
    (c.recommended ⟨first.append second, apis⟩ (fields ++ fields') vectors).listed name =
      (c.recommended ⟨first, apis⟩ fields vectors).listed name ++
        (c.recommended ⟨second, apis⟩ fields' vectors).listed name := by
  rw [listed_recommended c (Payload.usable_append hdisjoint h h'), listed_recommended c h,
    listed_recommended c h', zip_scores_append hdisjoint h h', List.filterMap_append]

theorem names_recommended_append :
    (c.recommended ⟨first.append second, apis⟩ (fields ++ fields') vectors).names =
      (c.recommended ⟨first, apis⟩ fields vectors).names ++
        (c.recommended ⟨second, apis⟩ fields' vectors).names.filter
          fun name => name ∉ (c.recommended ⟨first, apis⟩ fields vectors).names := by
  simp only [names_recommended]
  rw [zip_scores_append hdisjoint h h', List.flatMap_append, List.map_append,
    List.eraseDups_append, List.removeAll, eraseDups_filter]
  refine congrArg _ (List.filter_congr fun name _ => ?_)
  rw [Bool.eq_iff_iff, decide_eq_true_eq, List.mem_eraseDups]
  simp

end MatchingSettings

end Append

/-- If each text is embedded on its own and two schemas of distinct fields both have
    recommendations, then so has one followed by the other: under each name those of the one,
    followed by those of the other, and the names of the one, followed by the new names of the
    other. -/
theorem Matcher.recommend_append {r : Matcher (StateM σ)} {embed : String → Except Error Embedding}
    {first second : Schema} {rs rs' : Recommendations} {s s' : σ}
    (hembed : r.provider.Independent embed) (hdisjoint : ∀ name ∈ first.names, name ∉ second.names)
    (hfirst : ((r.recommend ⟨first, apis⟩).run s).1 = .ok rs)
    (hsecond : ((r.recommend ⟨second, apis⟩).run s').1 = .ok rs') (u : σ) :
    ∃ all, ((r.recommend ⟨first.append second, apis⟩).run u).1 = .ok all ∧
      (∀ name, all.listed name = rs.listed name ++ rs'.listed name) ∧
      all.names = rs.names ++ rs'.names.filter fun name => name ∉ rs.names := by
  obtain ⟨fields, vectors, hanswers, husable, rfl⟩ := recommend_eq_ok_iff.1 hfirst
  obtain ⟨fields', vectors', hanswers', husable', rfl⟩ := recommend_eq_ok_iff.1 hsecond
  rw [hembed.embeds_iff] at hanswers hanswers'
  obtain rfl : vectors = vectors' := Except.ok.inj (hanswers.2.symm.trans hanswers'.2)
  have hembeds : r.Embeds ⟨first.append second, apis⟩ u (fields ++ fields') vectors := by
    rw [hembed.embeds_iff, Schema.values_append hdisjoint, List.mapM_append, hanswers.1,
      hanswers'.1]
    exact ⟨rfl, hanswers.2⟩
  refine ⟨_, recommend_of_usable hembeds (Payload.usable_append hdisjoint husable husable'), ?_, ?_⟩
  · exact MatchingSettings.listed_recommended_append hdisjoint husable husable'
  · exact MatchingSettings.names_recommended_append hdisjoint husable husable'

/-- Of the names of the second schema, the new one comes after that of the first. -/
theorem Matcher.recommend_append_slope :
    ∃ rs rs' all,
      (((ofDirections ⟨.cosine, 0.5, none, .standard⟩ rfl).recommend
        ⟨.ofList [("x", "east")], [⟨"Slope", "low"⟩, ⟨"Cliff", "high"⟩]⟩).run ()).1 = .ok rs ∧
      (((ofDirections ⟨.cosine, 0.5, none, .standard⟩ rfl).recommend
        ⟨.ofList [("y", "north"), ("z", "east")],
          [⟨"Slope", "low"⟩, ⟨"Cliff", "high"⟩]⟩).run ()).1 = .ok rs' ∧
      (((ofDirections ⟨.cosine, 0.5, none, .standard⟩ rfl).recommend
        ⟨Schema.append (.ofList [("x", "east")]) (.ofList [("y", "north"), ("z", "east")]),
          [⟨"Slope", "low"⟩, ⟨"Cliff", "high"⟩]⟩).run ()).1 = .ok all ∧
      all.names = ["Slope", "Cliff"] ∧
      (all.listed "Slope" == [⟨"x", 0.8⟩, ⟨"z", 0.8⟩]) = true := by
  have hembed := Provider.independent_ofTable directions
  have hembeds : (ofDirections ⟨.cosine, 0.5, none, .standard⟩ rfl).Embeds
      ⟨.ofList [("x", "east")], [⟨"Slope", "low"⟩, ⟨"Cliff", "high"⟩]⟩ ()
      [⟨[1, 0]⟩] [⟨[4, 3]⟩, ⟨[3, 4]⟩] := ⟨rfl, rfl⟩
  have hembeds' : (ofDirections ⟨.cosine, 0.5, none, .standard⟩ rfl).Embeds
      ⟨.ofList [("y", "north"), ("z", "east")], [⟨"Slope", "low"⟩, ⟨"Cliff", "high"⟩]⟩ ()
      [⟨[0, 1]⟩, ⟨[1, 0]⟩] [⟨[4, 3]⟩, ⟨[3, 4]⟩] := ⟨rfl, rfl⟩
  have hrun := recommend_of_usable hembeds (by decide +kernel)
  have hrun' := recommend_of_usable hembeds' (by decide +kernel)
  have hdisjoint : ∀ name ∈ (Table.ofList [("x", "east")]).names,
      name ∉ (Table.ofList [("y", "north"), ("z", "east")]).names := by decide +kernel
  obtain ⟨all, hall, hlisted, hnames⟩ := recommend_append hembed hdisjoint hrun hrun' ()
  refine ⟨_, _, all, hrun, hrun', hall, ?_, ?_⟩
  · rw [hnames]
    decide +kernel
  · rw [hlisted]
    decide +kernel

end SchemaMatch

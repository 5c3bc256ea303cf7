import SchemaMatch.Proofs.Matcher.Meaning

/-!
# Runs with other settings

Two runs with the same embeddings have the same rows of scores, and differ by what each row
recommends.

* A higher threshold removes the recommendations below it, and leaves the others as they are:
  `recommend_of_threshold_le`. The first selected column of a name has the greatest score of all
  that are selected for the name, so that it is removed only with all of them.
* Where more columns are considered, more is recommended, and what was recommended before stays as
  it is: `recommend_of_breadth_le`. What a row selects goes on where it ended, so that the first
  selected column of a name stays the first one.
-/

namespace SchemaMatch

open Recommendations

variable {σ τ : Type} {p q : Policy} {apis : List Method} {name : String}

/-- A row recommends what it does with a lower threshold, unless that is below the threshold. -/
theorem Policy.recommend?_of_threshold_le (htopK : q.topK = p.topK)
    (hle : p.threshold ≤ q.threshold) (entry : String × List Float) :
    q.recommend? apis name entry =
      (p.recommend? apis name entry).filter fun r => !decide (r.score < q.threshold) := by
  -- Scores descend, so that a candidate is kept wherever a later one is.
  have hkept : (p.selectRow entry.2).Pairwise fun c d =>
      !decide (d.score < q.threshold) → !decide (c.score < q.threshold) := by
    refine (pairwise_selectRow p entry.2).imp fun hdc hd => ?_
    rw [Bool.not_eq_true', decide_eq_false_iff_not] at hd ⊢
    exact fun hc => hd (Double.lt_of_le_of_lt hdc hc)
  rw [recommend?, recommend?, leading?, leading?, selectRow_of_threshold_le htopK hle,
    find?_filter_of_pairwise hkept]
  cases (p.selectRow entry.2).find? (bears apis name) with
  | none => rfl
  | some c => by_cases hc : c.score < q.threshold <;> simp [Option.filter, hc]

/-- Settings with a higher threshold recommend the same without what is below the threshold. -/
theorem MatchingSettings.listed_recommended_of_threshold_le {c d : MatchingSettings}
    {payload : Payload} {fields apis : List Embedding}
    (hsettings : d = { c with threshold := d.threshold }) (hle : c.threshold ≤ d.threshold)
    (husable : payload.Usable fields apis) (name : String) :
    (d.recommended payload fields apis).listed name =
      ((c.recommended payload fields apis).listed name).filter
        fun entry => !decide (entry.score < d.threshold) := by
  -- The threshold has no part in the scores.
  have hscores : d.scores fields apis = c.scores fields apis := by
    rw [hsettings]
    rfl
  have htopK : d.policy.topK = c.policy.topK := by
    rw [hsettings]
    rfl
  rw [listed_recommended d husable, listed_recommended c husable, List.filter_filterMap, hscores]
  congr 1
  funext entry
  exact Policy.recommend?_of_threshold_le htopK hle entry

/-- With a higher threshold and the same embeddings, a run recommends the same without what is below
    the threshold: in the same order, with the same scores, and under no other names than those of
    which something is left. -/
theorem Matcher.recommend_of_threshold_le {r : Matcher (StateM σ)} {r' : Matcher (StateM τ)}
    {payload : Payload} {s : σ} {s' : τ} {fields apis : List Embedding} {rs : Recommendations}
    (hsettings : r'.settings = { r.settings with threshold := r'.settings.threshold })
    (hle : r.settings.threshold ≤ r'.settings.threshold)
    (hembeds : r.Embeds payload s fields apis) (hembeds' : r'.Embeds payload s' fields apis)
    (hrun : ((r.recommend payload).run s).1 = .ok rs) :
    ∃ rs', ((r'.recommend payload).run s').1 = .ok rs' ∧ ∀ name,
      rs'.listed name =
        (rs.listed name).filter (fun entry => !decide (entry.score < r'.settings.threshold)) ∧
      (rs'.get? name = none ↔
        (rs.listed name).filter
          (fun entry => !decide (entry.score < r'.settings.threshold)) = []) := by
  obtain ⟨fields', apis', hanswers, husable, rfl⟩ := recommend_eq_ok_iff.1 hrun
  obtain ⟨rfl, rfl⟩ := hanswers.unique hembeds
  have hlisted := MatchingSettings.listed_recommended_of_threshold_le hsettings hle husable
  refine ⟨_, recommend_of_usable hembeds' husable, fun name => ⟨hlisted name, ?_⟩⟩
  rw [← hlisted, get?_eq_none_iff_listed (MatchingSettings.occupied_recommended _ _ _ _)]

/-- Of two fields on both sides of the higher threshold, only the closer one is left. -/
theorem Matcher.recommend_of_threshold_le_slope :
    ∃ rs rs',
      (((ofDirections ⟨.cosine, 0.5, none, .standard⟩ rfl).recommend
        ⟨.ofList [("x", "east"), ("y", "north")], [⟨"Slope", "low"⟩]⟩).run ()).1 = .ok rs ∧
      (((ofDirections ⟨.cosine, 0.7, none, .standard⟩ rfl).recommend
        ⟨.ofList [("x", "east"), ("y", "north")], [⟨"Slope", "low"⟩]⟩).run ()).1 = .ok rs' ∧
      (rs.listed "Slope" == [⟨"x", 0.8⟩, ⟨"y", 0.6⟩]) = true ∧
      (rs'.listed "Slope" == [⟨"x", 0.8⟩]) = true := by
  have hembeds : (ofDirections ⟨.cosine, 0.5, none, .standard⟩ rfl).Embeds
      ⟨.ofList [("x", "east"), ("y", "north")], [⟨"Slope", "low"⟩]⟩ ()
      [⟨[1, 0]⟩, ⟨[0, 1]⟩] [⟨[4, 3]⟩] := ⟨rfl, rfl⟩
  have hembeds' : (ofDirections ⟨.cosine, 0.7, none, .standard⟩ rfl).Embeds
      ⟨.ofList [("x", "east"), ("y", "north")], [⟨"Slope", "low"⟩]⟩ ()
      [⟨[1, 0]⟩, ⟨[0, 1]⟩] [⟨[4, 3]⟩] := ⟨rfl, rfl⟩
  have hrun := recommend_of_usable hembeds (by decide +kernel)
  have hle : (ofDirections ⟨.cosine, 0.5, none, .standard⟩ rfl).settings.threshold ≤
      (ofDirections ⟨.cosine, 0.7, none, .standard⟩ rfl).settings.threshold := by decide +kernel
  obtain ⟨rs', hrun', hlisted⟩ := recommend_of_threshold_le (by rfl) hle hembeds hembeds' hrun
  refine ⟨_, rs', hrun, hrun', by decide +kernel, ?_⟩
  rw [(hlisted "Slope").1]
  decide +kernel

/-! ## More candidates -/

/-- Whether some recommendations hold all those of a run: under each name in their order, and for no
    field with another score. -/
structure Recommendations.Extends (more fewer : Recommendations) : Prop where
  sublist : ∀ name, (fewer.listed name).Sublist (more.listed name)
  score_eq : ∀ name, ∀ a ∈ fewer.listed name, ∀ b ∈ more.listed name,
    a.field = b.field → a.score = b.score

/-- What is found more often is found in the same order. -/
theorem filterMap_sublist_filterMap {α β : Type} {f g : α → Option β} {items : List α}
    (h : ∀ a ∈ items, ∀ b, f a = some b → g a = some b) :
    (items.filterMap f).Sublist (items.filterMap g) := by
  induction items with
  | nil => exact .refl _
  | cons first later ih =>
    rw [List.forall_mem_cons] at h
    have ih := ih h.2
    cases hf : f first with
    | none =>
      rw [List.filterMap_cons_none hf]
      cases hg : g first with
      | none => rwa [List.filterMap_cons_none hg]
      | some b =>
        rw [List.filterMap_cons_some hg]
        exact ih.cons b
    | some b =>
      rw [List.filterMap_cons_some hf, List.filterMap_cons_some (h.1 b hf)]
      exact ih.cons_cons b

/-- A row recommends what it does when fewer columns are considered. -/
theorem Policy.recommend?_of_breadth_le (hthreshold : q.threshold = p.threshold)
    (hle : p.breadth ≤ q.breadth) {entry : String × List Float}
    (hrow : p.topK.isSome ∧ q.topK.isSome ∨ AllNumbers entry.2) {r : Recommendation}
    (hr : p.recommend? apis name entry = some r) : q.recommend? apis name entry = some r := by
  rw [recommend?, leading?, Option.map_eq_some_iff] at hr ⊢
  obtain ⟨c, hfind, heq⟩ := hr
  exact ⟨c, (selectRow_of_breadth_le hthreshold hle hrow).find?_eq_some hfind, heq⟩

/-- Settings with which more columns are considered recommend all that the others do. -/
theorem MatchingSettings.extends_recommended_of_breadth_le {c d : MatchingSettings}
    {payload : Payload} {fields apis : List Embedding}
    (hsettings : d = { c with topK := d.topK }) (hle : c.policy.breadth ≤ d.policy.breadth)
    (hrows : c.topK.isSome ∧ d.topK.isSome ∨ ∀ row ∈ c.scores fields apis, AllNumbers row)
    (husable : payload.Usable fields apis) :
    (d.recommended payload fields apis).Extends (c.recommended payload fields apis) := by
  -- How many columns are considered has no part in the scores.
  have hscores : d.scores fields apis = c.scores fields apis := by
    rw [hsettings]
    rfl
  have hthreshold : d.policy.threshold = c.policy.threshold := by
    rw [hsettings]
    rfl
  have hsublist : ∀ name, ((c.recommended payload fields apis).listed name).Sublist
      ((d.recommended payload fields apis).listed name) := by
    intro name
    rw [listed_recommended c husable, listed_recommended d husable, hscores]
    refine filterMap_sublist_filterMap fun entry hentry r hr => ?_
    refine Policy.recommend?_of_breadth_le hthreshold hle ?_ hr
    exact hrows.imp_right fun hrows => hrows _ (List.of_mem_zip hentry).2
  refine ⟨hsublist, fun name a ha b hb hfield => ?_⟩
  -- Either entry is the one of its field.
  have hnodup : (((d.recommended payload fields apis).listed name).map (·.field)).Nodup := by
    rw [listed_recommended d husable]
    refine (Policy.map_field_filterMap_recommend?_sublist _).nodup ?_
    rw [List.map_fst_zip (length_scores d husable).ge]
    exact payload.fields.nodup_names
  rw [List.inj_on_of_nodup_map hnodup ((hsublist name).subset ha) hb hfield]

/-- With more columns considered and the same embeddings, a run recommends all that it does
    otherwise: under each name in the same order, and with the same scores. To go from the best
    column to a number of candidates, all scores must be numbers. -/
theorem Matcher.recommend_of_breadth_le {r : Matcher (StateM σ)} {r' : Matcher (StateM τ)}
    {payload : Payload} {s : σ} {s' : τ} {fields apis : List Embedding} {rs : Recommendations}
    (hsettings : r'.settings = { r.settings with topK := r'.settings.topK })
    (hle : r.settings.policy.breadth ≤ r'.settings.policy.breadth)
    (hembeds : r.Embeds payload s fields apis) (hembeds' : r'.Embeds payload s' fields apis)
    (hrun : ((r.recommend payload).run s).1 = .ok rs) :
    ∃ rs' m, ((r'.recommend payload).run s').1 = .ok rs' ∧ r.matrix payload s = .ok m ∧
      (r.settings.topK.isSome ∧ r'.settings.topK.isSome ∨
          (∀ i j x, m.get? i j = some x → x.isNaN = false) →
        rs'.Extends rs) := by
  obtain ⟨fields', apis', hanswers, husable, rfl⟩ := recommend_eq_ok_iff.1 hrun
  obtain ⟨rfl, rfl⟩ := hanswers.unique hembeds
  obtain ⟨m, hmatrix, hrows, -, -⟩ := exists_matrix_of_usable hembeds husable
  refine ⟨_, m, recommend_of_usable hembeds' husable, hmatrix, fun hnumbers => ?_⟩
  rw [ScoreMatrix.forall_get?_iff, hrows] at hnumbers
  exact MatchingSettings.extends_recommended_of_breadth_le hsettings hle hnumbers husable

/-- The best column, the best one of the ranking, and the best two. -/
theorem Matcher.recommend_of_breadth_le_slope :
    ∃ rs rs' rs'',
      (((ofDirections ⟨.cosine, 0.5, none, .standard⟩ rfl).recommend
        ⟨.ofList [("x", "east")], [⟨"Cliff", "high"⟩, ⟨"Slope", "low"⟩]⟩).run ()).1 = .ok rs ∧
      (((ofDirections ⟨.cosine, 0.5, some ⟨1, by decide⟩, .standard⟩ rfl).recommend
        ⟨.ofList [("x", "east")], [⟨"Cliff", "high"⟩, ⟨"Slope", "low"⟩]⟩).run ()).1 = .ok rs' ∧
      (((ofDirections ⟨.cosine, 0.5, some ⟨2, by decide⟩, .standard⟩ rfl).recommend
        ⟨.ofList [("x", "east")], [⟨"Cliff", "high"⟩, ⟨"Slope", "low"⟩]⟩).run ()).1 = .ok rs'' ∧
      (rs.listed "Slope" == [⟨"x", 0.8⟩]) = true ∧ rs'.Extends rs ∧ rs''.Extends rs' := by
  have hembeds : ∀ (c : MatchingSettings) (hc : c.validate = .ok ()), (ofDirections c hc).Embeds
      ⟨.ofList [("x", "east")], [⟨"Cliff", "high"⟩, ⟨"Slope", "low"⟩]⟩ ()
      [⟨[1, 0]⟩] [⟨[3, 4]⟩, ⟨[4, 3]⟩] := fun _ _ => ⟨rfl, rfl⟩
  have husable : Payload.Usable
      ⟨.ofList [("x", "east")], [⟨"Cliff", "high"⟩, ⟨"Slope", "low"⟩]⟩
      [⟨[1, 0]⟩] [⟨[3, 4]⟩, ⟨[4, 3]⟩] := by decide +kernel
  have hrun := recommend_of_usable (hembeds ⟨.cosine, 0.5, none, .standard⟩ rfl) husable
  have hembeds' := hembeds ⟨.cosine, 0.5, some ⟨1, by decide⟩, .standard⟩ rfl
  have hembeds'' := hembeds ⟨.cosine, 0.5, some ⟨2, by decide⟩, .standard⟩ rfl
  obtain ⟨rs', m, hrun', hmatrix, hextends⟩ :=
    recommend_of_breadth_le (by rfl) (by decide) (hembeds _ _) hembeds' hrun
  obtain ⟨rs'', m', hrun'', -, hextends'⟩ :=
    recommend_of_breadth_le (by rfl) (by decide) hembeds' hembeds'' hrun'
  refine ⟨_, rs', rs'', hrun, hrun', hrun'', by decide +kernel, hextends (.inr ?_),
    hextends' (.inl ⟨rfl, rfl⟩)⟩
  have hrows : m.rows = [[0.6, 0.8]] := by
    obtain ⟨m', hmatrix', hrows, -, -⟩ := exists_matrix_of_usable (hembeds _ _) husable
    rw [Except.ok.inj (hmatrix.symm.trans hmatrix'), hrows]
    decide +kernel
  rw [ScoreMatrix.forall_get?_iff, hrows]
  decide +kernel

end SchemaMatch

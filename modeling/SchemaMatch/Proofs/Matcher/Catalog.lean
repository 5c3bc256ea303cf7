import SchemaMatch.Proofs.Matcher.Meaning
import SchemaMatch.Proofs.Selection.Choice

/-!
# Runs on other catalogs

Where each text is embedded on its own, an API method has its embedding and its scores wherever it
stands in the catalog (`embeddingOf`, `MatchingSettings.scored`). Where all scores are numbers, a
run then comes down to which API methods each field chooses by its scores
(`recommended_eq_collect`), and two catalogs from which each field chooses the same have the same
recommendations: `recommended_congr`.

* `recommend_perm`: without ties, the order of the API methods makes no difference;
* `recommend_without`: nor do API methods that reach the threshold for no field.
-/

namespace SchemaMatch

open Recommendations

variable {σ : Type} {embed : String → Except Error Embedding}

/-! ## Embeddings on their own -/

/-- The embedding of a text that is embedded on its own, or one without components if it has
    none. -/
def embeddingOf (embed : String → Except Error Embedding) (text : String) : Embedding :=
  match embed text with
  | .ok v => v
  | .error _ => ⟨[]⟩

theorem mapM_embed_of_forall {texts : List String}
    (h : ∀ text ∈ texts, embed text = .ok (embeddingOf embed text)) :
    texts.mapM embed = .ok (texts.map (embeddingOf embed)) := by
  induction texts with
  | nil => rfl
  | cons text later ih =>
    rw [List.mapM_cons, h text (by simp), ih fun t ht => h t (List.mem_cons_of_mem _ ht)]
    rfl

theorem forall_of_mapM_embed {texts : List String} {vectors : List Embedding}
    (h : texts.mapM embed = .ok vectors) :
    ∀ text ∈ texts, embed text = .ok (embeddingOf embed text) := by
  induction texts generalizing vectors with
  | nil => simp
  | cons text later ih =>
    rw [List.mapM_cons] at h
    cases htext : embed text with
    | error e => simp [htext, bind, Except.bind] at h
    | ok v =>
      cases hlater : later.mapM embed with
      | error e => simp [htext, hlater, bind, Except.bind] at h
      | ok vs =>
        refine List.forall_mem_cons.2 ⟨?_, ih hlater⟩
        rw [embeddingOf, htext]

/-- The embeddings of the API methods of a catalog, in their order. -/
def catalogVectors (embed : String → Except Error Embedding) (apis : List Method) :
    List Embedding :=
  apis.map fun api => embeddingOf embed api.description

/-- A catalog that takes its API methods from one that is embedded is embedded as well. -/
theorem mapM_embed_descriptions {schema : Schema} {apis apis' : List Method}
    {vectors : List Embedding} (hsubset : apis' ⊆ apis)
    (h : (Payload.mk schema apis).apiDescriptions.mapM embed = .ok vectors) :
    (Payload.mk schema apis').apiDescriptions.mapM embed = .ok (catalogVectors embed apis') := by
  rw [Payload.apiDescriptions, mapM_embed_of_forall, List.map_map]
  · rfl
  · intro text htext
    obtain ⟨api, hapi, rfl⟩ := List.mem_map.1 htext
    exact forall_of_mapM_embed h _ (List.mem_map_of_mem (hsubset hapi))

/-- What can be used with one catalog can be used with any other that takes its API methods from it
    and has one. -/
theorem Payload.Usable.of_subset {schema : Schema} {apis apis' : List Method}
    {fields : List Embedding}
    (h : Payload.Usable ⟨schema, apis⟩ fields (catalogVectors embed apis)) (hne : apis' ≠ [])
    (hsubset : apis' ⊆ apis) :
    Payload.Usable ⟨schema, apis'⟩ fields (catalogVectors embed apis') where
  fields_ne_nil := h.fields_ne_nil
  apis_ne_nil := hne
  length_fields := h.length_fields
  length_apis := by simp [catalogVectors, apiDescriptions]
  usable := by
    intro v hv
    refine h.usable v ?_
    rcases List.mem_append.1 hv with hv | hv
    · exact List.mem_append_left _ hv
    · exact List.mem_append_right _ (List.map_subset _ hsubset hv)

/-! ## Choices -/

namespace MatchingSettings

variable (c : MatchingSettings) {schema : Schema} {apis apis' : List Method}
  {fields : List Embedding}

/-- The API methods of a catalog with their scores for a field. -/
def scored (embed : String → Except Error Embedding) (fields : List Embedding) (v : Embedding)
    (apis : List Method) : List (Method × Float) :=
  apis.map fun api =>
    (api, c.scoring.score (firstDimension (.ok fields)) v (embeddingOf embed api.description))

/-- The rows of a catalog hold the scores of its API methods. -/
theorem scores_catalogVectors (fields : List Embedding) (apis : List Method) :
    c.scores fields (catalogVectors embed apis) =
      fields.map fun v => (c.scored embed fields v apis).map (·.2) := by
  simp [scores, catalogVectors, scored, Function.comp_def]

/-- Where all scores are numbers, a run collects what each field chooses by its scores. -/
theorem recommended_eq_collect
    (hnumbers : ∀ v ∈ fields, ∀ e ∈ c.scored embed fields v apis, e.2.isNaN = false) :
    c.recommended ⟨schema, apis⟩ fields (catalogVectors embed apis) =
      keepBest (collect ((schema.names.zip fields).flatMap fun entry =>
        (c.policy.chosen (c.scored embed fields entry.2 apis)).map
          fun e => (e.1.name, ⟨entry.1, e.2⟩))) := by
  rw [recommended, Recommendations.grouped, scores_catalogVectors, List.map_map,
    List.zip_map_right, List.flatMap_map]
  congr 2
  -- Row by row, the hits are those of the API methods with their scores.
  refine List.flatMap_congr fun entry hentry => ?_
  have hzip : apis.zip ((c.scored embed fields entry.2 apis).map (·.2)) =
      c.scored embed fields entry.2 apis := by
    rw [scored, List.map_map, ← List.map_prod_left_eq_zip]
    rfl
  have hrow : AllNumbers ((c.scored embed fields entry.2 apis).map (·.2)) := by
    intro x hx
    obtain ⟨e, he, rfl⟩ := List.mem_map.1 hx
    exact hnumbers entry.2 (List.of_mem_zip hentry).2 e he
  have hlength : ((c.scored embed fields entry.2 apis).map (·.2)).length = apis.length := by
    simp [scored]
  have hhits := hits_selectRow c.policy hlength hrow entry.1
  rw [hzip] at hhits
  exact hhits

/-- Two catalogs from which each field chooses the same have the same recommendations. -/
theorem recommended_congr
    (hnumbers : ∀ v ∈ fields, ∀ e ∈ c.scored embed fields v apis, e.2.isNaN = false)
    (hsubset : apis' ⊆ apis)
    (hchosen : ∀ v ∈ fields, c.policy.chosen (c.scored embed fields v apis') =
      c.policy.chosen (c.scored embed fields v apis)) :
    c.recommended ⟨schema, apis'⟩ fields (catalogVectors embed apis') =
      c.recommended ⟨schema, apis⟩ fields (catalogVectors embed apis) := by
  have hnumbers' : ∀ v ∈ fields, ∀ e ∈ c.scored embed fields v apis', e.2.isNaN = false :=
    fun v hv e he => hnumbers v hv e (List.map_subset _ hsubset he)
  rw [recommended_eq_collect c hnumbers, recommended_eq_collect c hnumbers']
  congr 2
  refine List.flatMap_congr fun entry hentry => ?_
  rw [hchosen entry.2 (List.of_mem_zip hentry).2]

end MatchingSettings

namespace Matcher

variable {r : Matcher (StateM σ)} {schema : Schema} {apis apis' : List Method} {s : σ}
  {m : ScoreMatrix} {rs : Recommendations}

/-- The scores of a run on a catalog are those of its API methods, and any catalog that takes its
    API methods from it and has one has a run as well. -/
theorem exists_fields_of_run (hembed : r.provider.Independent embed)
    (hmatrix : r.matrix ⟨schema, apis⟩ s = .ok m)
    (hrun : ((r.recommend ⟨schema, apis⟩).run s).1 = .ok rs) :
    ∃ fields, apis ≠ [] ∧
      r.settings.recommended ⟨schema, apis⟩ fields (catalogVectors embed apis) = rs ∧
      m.rows = fields.map (fun v => (r.settings.scored embed fields v apis).map (·.2)) ∧
      ∀ apis', apis' ≠ [] → apis' ⊆ apis → ∀ s', ((r.recommend ⟨schema, apis'⟩).run s').1 =
        .ok (r.settings.recommended ⟨schema, apis'⟩ fields (catalogVectors embed apis')) := by
  obtain ⟨fields, vectors, hembeds, husable, rfl⟩ := recommend_eq_ok_iff.1 hrun
  obtain ⟨hfields, hapis⟩ := hembed.embeds_iff.1 hembeds
  obtain rfl : vectors = catalogVectors embed apis :=
    Except.ok.inj (hapis.symm.trans (mapM_embed_descriptions (List.Subset.refl _) hapis))
  obtain ⟨m', hmatrix', hrows, -, -⟩ := exists_matrix_of_usable hembeds husable
  obtain rfl : m' = m := Except.ok.inj (hmatrix'.symm.trans hmatrix)
  refine ⟨fields, husable.apis_ne_nil, rfl, ?_, fun apis' hne hsubset s' => ?_⟩
  · rw [hrows, MatchingSettings.scores_catalogVectors]
  · exact recommend_of_usable (hembed.embeds_iff.2 ⟨hfields, mapM_embed_descriptions hsubset hapis⟩)
      (husable.of_subset hne hsubset)

/-- Where each text is embedded on its own, all scores are numbers and no two scores of a field are
    equal, the order of the API methods makes no difference. -/
theorem recommend_perm (hembed : r.provider.Independent embed) (hperm : apis.Perm apis')
    (hmatrix : r.matrix ⟨schema, apis⟩ s = .ok m)
    (hnumbers : ∀ i j x, m.get? i j = some x → x.isNaN = false)
    (hties : ∀ i j k x y, m.get? i j = some x → m.get? i k = some y → j ≠ k → (x == y) = false)
    (hrun : ((r.recommend ⟨schema, apis⟩).run s).1 = .ok rs) (s' : σ) :
    ((r.recommend ⟨schema, apis'⟩).run s').1 = .ok rs := by
  obtain ⟨fields, hne, rfl, hrows, hother⟩ := exists_fields_of_run hembed hmatrix hrun
  rw [ScoreMatrix.forall_get?_iff] at hnumbers
  rw [ScoreMatrix.forall_get?_iff_pairwise] at hties
  simp only [hrows, List.forall_mem_map, List.pairwise_map] at hnumbers hties
  have hne' : apis' ≠ [] := by
    rintro rfl
    exact hne hperm.eq_nil
  rw [hother apis' hne' hperm.symm.subset s']
  congr 1
  refine MatchingSettings.recommended_congr _ hnumbers hperm.symm.subset fun v hv => ?_
  exact (Policy.chosen_perm (hperm.map _) (hnumbers v hv) (hties v hv)).symm

/-- The names come in the order of the fields that are closest to them, not in that of the catalog.
    -/
theorem recommend_perm_slope :
    ∃ rs,
      (((ofDirections ⟨.cosine, 0.5, none, .standard⟩ rfl).recommend
        ⟨.ofList [("x", "east"), ("y", "north")],
          [⟨"Slope", "low"⟩, ⟨"Cliff", "high"⟩]⟩).run ()).1 = .ok rs ∧
      (((ofDirections ⟨.cosine, 0.5, none, .standard⟩ rfl).recommend
        ⟨.ofList [("x", "east"), ("y", "north")],
          [⟨"Cliff", "high"⟩, ⟨"Slope", "low"⟩]⟩).run ()).1 = .ok rs ∧
      rs.names = ["Slope", "Cliff"] := by
  have hembeds : (ofDirections ⟨.cosine, 0.5, none, .standard⟩ rfl).Embeds
      ⟨.ofList [("x", "east"), ("y", "north")], [⟨"Slope", "low"⟩, ⟨"Cliff", "high"⟩]⟩ ()
      [⟨[1, 0]⟩, ⟨[0, 1]⟩] [⟨[4, 3]⟩, ⟨[3, 4]⟩] := ⟨rfl, rfl⟩
  have husable : Payload.Usable
      ⟨.ofList [("x", "east"), ("y", "north")], [⟨"Slope", "low"⟩, ⟨"Cliff", "high"⟩]⟩
      [⟨[1, 0]⟩, ⟨[0, 1]⟩] [⟨[4, 3]⟩, ⟨[3, 4]⟩] := by decide +kernel
  have hrun := recommend_of_usable hembeds husable
  obtain ⟨m, hmatrix, hscores, -, -⟩ := exists_matrix_of_usable hembeds husable
  have hrows : m.rows = [[0.8, 0.6], [0.6, 0.8]] := by
    rw [hscores]
    decide +kernel
  refine ⟨_, hrun, ?_, by decide +kernel⟩
  refine recommend_perm (Provider.independent_ofTable directions) (by decide) hmatrix ?_ ?_ hrun ()
  · rw [ScoreMatrix.forall_get?_iff, hrows]
    decide +kernel
  · rw [ScoreMatrix.forall_get?_iff_pairwise, hrows]
    decide +kernel

end Matcher

/-! ## Leaving out API methods -/

/-- A catalog without the API methods at some places. -/
def without (removed : Nat → Bool) (apis : List Method) : List Method :=
  (apis.zipIdx.filter fun entry => !removed entry.2).map (·.1)

theorem without_subset (removed : Nat → Bool) (apis : List Method) :
    without removed apis ⊆ apis := by
  intro api hapi
  obtain ⟨entry, hentry, rfl⟩ := List.mem_map.1 hapi
  exact List.fst_mem_of_mem_zipIdx (List.mem_of_mem_filter hentry)

/-- What is removed makes no difference if none of it is kept. -/
theorem filter_map_without {α : Type} {removed : Nat → Bool} {apis : List Method} {f : Method → α}
    {keep : α → Bool} (h : ∀ j api, apis[j]? = some api → removed j → ¬keep (f api)) :
    ((without removed apis).map f).filter keep = (apis.map f).filter keep := by
  have hmap : apis.map f = apis.zipIdx.map fun entry => f entry.1 := by
    rw [← Function.comp_def f, ← List.map_map, List.zipIdx_map_fst]
  rw [without, List.map_map, hmap, List.filter_map, List.filter_map, List.filter_filter]
  congr 1
  refine List.filter_congr fun entry hentry => ?_
  have hentry := h entry.2 entry.1 (List.mk_mem_zipIdx_iff_getElem?.1 hentry)
  by_cases hremoved : removed entry.2
  · simp [hentry hremoved]
  · simp [hremoved]

namespace Matcher

variable {r : Matcher (StateM σ)} {schema : Schema} {apis : List Method} {s : σ}
  {m : ScoreMatrix} {rs : Recommendations}

/-- Where each text is embedded on its own and all scores are numbers, API methods that are below
    the threshold for every field may be left out, as long as one is left. In no row does it matter
    whether the threshold is applied before or after the best columns are taken. -/
theorem recommend_without {removed : Nat → Bool} (hembed : r.provider.Independent embed)
    (hmatrix : r.matrix ⟨schema, apis⟩ s = .ok m)
    (hnumbers : ∀ i j x, m.get? i j = some x → x.isNaN = false)
    (hbelow : ∀ i j x, m.get? i j = some x → removed j → x < r.settings.threshold)
    (hne : without removed apis ≠ [])
    (hrun : ((r.recommend ⟨schema, apis⟩).run s).1 = .ok rs) (s' : σ) :
    ((r.recommend ⟨schema, without removed apis⟩).run s').1 = .ok rs ∧
      ∀ row ∈ m.rows, r.settings.policy.selectRow row =
        ((ranked row).filter fun c => decide (r.settings.threshold ≤ c.score)).take
          r.settings.policy.breadth := by
  obtain ⟨fields, -, rfl, hrows, hother⟩ := exists_fields_of_run hembed hmatrix hrun
  rw [ScoreMatrix.forall_get?_iff] at hnumbers
  refine ⟨?_, fun row hrow => selectRow_eq_take_filter _ (hnumbers row hrow)⟩
  rw [hother _ hne (without_subset removed apis) s']
  congr 1
  simp only [hrows, List.forall_mem_map] at hnumbers
  refine MatchingSettings.recommended_congr _ hnumbers (without_subset removed apis) fun v hv => ?_
  rw [Policy.chosen, Policy.chosen]
  congr 2
  refine filter_map_without fun j api hapi hremoved => ?_
  -- The row of the field has the score of the API method at its place.
  obtain ⟨i, hi⟩ := List.mem_iff_getElem?.1 hv
  have hcell : m.get? i j = some (r.settings.scoring.score (firstDimension (.ok fields)) v
      (embeddingOf embed api.description)) := by
    simp [ScoreMatrix.get?, ScoreMatrix.row?, hrows, hi, MatchingSettings.scored, hapi]
  rw [decide_eq_true_eq]
  exact fun hreach => Double.not_lt_of_le hreach (hbelow i j _ hcell hremoved)

/-- An API method that no field comes close to may be left out. -/
theorem recommend_without_slope :
    ∃ rs,
      (((ofDirections ⟨.cosine, 0.7, none, .standard⟩ rfl).recommend
        ⟨.ofList [("x", "east")], [⟨"Cliff", "high"⟩, ⟨"Slope", "low"⟩]⟩).run ()).1 = .ok rs ∧
      (((ofDirections ⟨.cosine, 0.7, none, .standard⟩ rfl).recommend
        ⟨.ofList [("x", "east")], [⟨"Slope", "low"⟩]⟩).run ()).1 = .ok rs ∧
      (rs.listed "Slope" == [⟨"x", 0.8⟩]) = true := by
  have hembeds : (ofDirections ⟨.cosine, 0.7, none, .standard⟩ rfl).Embeds
      ⟨.ofList [("x", "east")], [⟨"Cliff", "high"⟩, ⟨"Slope", "low"⟩]⟩ ()
      [⟨[1, 0]⟩] [⟨[3, 4]⟩, ⟨[4, 3]⟩] := ⟨rfl, rfl⟩
  have husable : Payload.Usable
      ⟨.ofList [("x", "east")], [⟨"Cliff", "high"⟩, ⟨"Slope", "low"⟩]⟩
      [⟨[1, 0]⟩] [⟨[3, 4]⟩, ⟨[4, 3]⟩] := by decide +kernel
  have hrun := recommend_of_usable hembeds husable
  obtain ⟨m, hmatrix, hscores, -, -⟩ := exists_matrix_of_usable hembeds husable
  have hrows : m.rows = [[0.6, 0.8]] := by
    rw [hscores]
    decide +kernel
  have hnumbers : ∀ i j x, m.get? i j = some x → x.isNaN = false := by
    rw [ScoreMatrix.forall_get?_iff, hrows]
    decide +kernel
  have hbelow : ∀ i j x, m.get? i j = some x → decide (j = 0) →
      x < (ofDirections ⟨.cosine, 0.7, none, .standard⟩ rfl).settings.threshold := by
    intro i j x hx hj
    rw [of_decide_eq_true hj, ScoreMatrix.get?, ScoreMatrix.row?, hrows] at hx
    obtain ⟨row, hrow, hx⟩ := Option.bind_eq_some_iff.1 hx
    have hall : ∀ row ∈ [[(0.6 : Float), 0.8]], ∀ x ∈ row[0]?, x < 0.7 := by decide +kernel
    exact hall row (List.mem_of_getElem? hrow) x hx
  exact ⟨_, hrun, (recommend_without
    (Provider.independent_ofTable directions) hmatrix hnumbers hbelow (by decide) hrun ()).1,
    by decide +kernel⟩

end Matcher

end SchemaMatch

import SchemaMatch.Proofs.Matcher.Run
import SchemaMatch.Proofs.Recommendations.Grouping
import SchemaMatch.Proofs.Selection.Ranking

/-!
# The meaning of recommendations

What a run recommends under a name is told row by row: the first selected column of the name, if
there is one, gives the field of the row its score (`listed_recommended`).

Where all scores of a run are numbers, this can be told without any order of selection. A column
*qualifies* for a name (`Qualifies`) if its API method has the name, its score reaches the
threshold, and fewer columns of its row beat it than are considered; it *leads* (`Leads`) if it
beats all others that qualify. A field is recommended under a name exactly if a column leads in its
row, and with the score of that column: `mem_recommend_iff`.
-/

namespace SchemaMatch

open Recommendations

variable {σ : Type} {p : Policy} {apis : List Method} {name field : String} {row : List Float}
  {score : Float} {c : Candidate}

/-! ## Row by row -/

/-- What a field is recommended with under a name, by its row: the first selected column of the
    name. -/
def Policy.recommend? (p : Policy) (apis : List Method) (name : String)
    (entry : String × List Float) : Option Recommendation :=
  leading? apis name (entry.1, p.selectRow entry.2)

theorem Policy.field_of_recommend? {entry : String × List Float} {r : Recommendation}
    (h : p.recommend? apis name entry = some r) : r.field = entry.1 := by
  rw [recommend?, leading?, Option.map_eq_some_iff] at h
  obtain ⟨_, _, rfl⟩ := h
  rfl

/-- No field comes twice where none is there twice. -/
theorem Policy.map_field_filterMap_recommend?_sublist (entries : List (String × List Float)) :
    ((entries.filterMap (p.recommend? apis name)).map (·.field)).Sublist (entries.map (·.1)) := by
  induction entries with
  | nil => exact .refl _
  | cons entry later ih =>
    rw [List.filterMap_cons, List.map_cons]
    cases hentry : p.recommend? apis name entry with
    | none => exact ih.cons _
    | some r =>
      rw [List.map_cons, field_of_recommend? hentry]
      exact ih.cons_cons _

namespace MatchingSettings

variable {payload : Payload} {fields apis : List Embedding}

/-- Under a name is what the rows recommend, field by field. -/
theorem listed_recommended (c : MatchingSettings) (husable : payload.Usable fields apis)
    (name : String) :
    (c.recommended payload fields apis).listed name =
      (payload.fields.names.zip (c.scores fields apis)).filterMap
        (c.policy.recommend? payload.apis name) := by
  rw [recommended, listed_grouped payload.fields.nodup_names]
  · rw [List.zip_map_right, List.filterMap_map]
    rfl
  · rw [List.length_map, length_scores c husable]
  · intro selection hselection
    obtain ⟨row, _, rfl⟩ := List.mem_map.1 hselection
    exact pairwise_selectRow c.policy row

theorem occupied_recommended (c : MatchingSettings) (payload : Payload)
    (fields apis : List Embedding) : (c.recommended payload fields apis).Occupied :=
  occupied_grouped _ _ _

/-- The names are in the order in which the rows first select an API method of theirs. -/
theorem names_recommended (c : MatchingSettings) (payload : Payload)
    (fields apis : List Embedding) :
    (c.recommended payload fields apis).names =
      (((payload.fields.names.zip (c.scores fields apis)).flatMap fun entry =>
        hits payload.apis entry.1 (c.policy.selectRow entry.2)).map (·.1)).eraseDups := by
  rw [recommended, names_grouped, List.zip_map_right, List.flatMap_map]
  rfl

end MatchingSettings

/-! ## Leading columns -/

/-- Whether a column of a row qualifies for a name: its API method has the name, and it reaches the
    threshold and is beaten by fewer columns than are considered. -/
structure Qualifies (p : Policy) (apis : List Method) (name : String) (row : List Float)
    (c : Candidate) : Prop where
  score_eq : row[c.column]? = some c.score
  name_eq : apis[c.column]?.map (·.name) = some name
  reaches : p.threshold ≤ c.score
  few : (candidates row).countP (·.beats c) < p.breadth

/-- Whether a column of a row leads for a name: it qualifies, and beats all others that do. -/
structure Leads (p : Policy) (apis : List Method) (name : String) (row : List Float)
    (c : Candidate) : Prop extends Qualifies p apis name row c where
  beats : ∀ d, Qualifies p apis name row d → d ≠ c → c.beats d

instance : Decidable (Qualifies p apis name row c) :=
  decidable_of_iff
    (row[c.column]? = some c.score ∧ apis[c.column]?.map (·.name) = some name ∧
      p.threshold ≤ c.score ∧ (candidates row).countP (·.beats c) < p.breadth)
    ⟨fun h => ⟨h.1, h.2.1, h.2.2.1, h.2.2.2⟩, fun h => ⟨h.score_eq, h.name_eq, h.reaches, h.few⟩⟩

/-- A column leads if it beats the others of its row that qualify. -/
theorem leads_iff_forall_candidates :
    Leads p apis name row c ↔ Qualifies p apis name row c ∧
      ∀ d ∈ candidates row, Qualifies p apis name row d → d ≠ c → c.beats d := by
  constructor
  · intro h
    exact ⟨h.toQualifies, fun d _ => h.beats d⟩
  · rintro ⟨hc, hbeats⟩
    exact ⟨hc, fun d hd => hbeats d (mem_candidates.2 hd.score_eq) hd⟩

deriving instance DecidableEq for Candidate

instance : Decidable (Leads p apis name row c) := decidable_of_iff' _ leads_iff_forall_candidates

theorem qualifies_iff (hrow : AllNumbers row) :
    Qualifies p apis name row c ↔ c ∈ p.selectRow row ∧ bears apis name c := by
  rw [mem_selectRow_iff p hrow, mem_candidates, bears, beq_iff_eq]
  constructor
  · intro h
    exact ⟨⟨h.score_eq, h.reaches, h.few⟩, h.name_eq⟩
  · rintro ⟨⟨hscore, hreach, hfew⟩, hname⟩
    exact ⟨hscore, hname, hreach, hfew⟩

/-- In a row of numbers, the column that leads is the first one that is selected for the name. -/
theorem find?_selectRow_eq_some_iff (hrow : AllNumbers row) :
    (p.selectRow row).find? (bears apis name) = some c ↔ Leads p apis name row c := by
  have hnumber : ∀ d, Qualifies p apis name row d → d.score.isNaN = false := fun d hd =>
    hrow _ (List.mem_of_getElem? hd.score_eq)
  rw [find?_eq_some_iff_of_pairwise (pairwise_precedes_selectRow p hrow)
    fun _ _ => not_precedes_of_precedes]
  constructor
  · rintro ⟨hmem, hbears, hfirst⟩
    have hc := (qualifies_iff hrow).2 ⟨hmem, hbears⟩
    refine ⟨hc, fun d hd hne => ?_⟩
    rw [← precedes_eq_beats (hnumber c hc) (hnumber d hd)]
    obtain ⟨hmem, hbears⟩ := (qualifies_iff hrow).1 hd
    exact hfirst d hmem hbears hne
  · intro hc
    obtain ⟨hmem, hbears⟩ := (qualifies_iff hrow).1 hc.toQualifies
    refine ⟨hmem, hbears, fun d hd hdbears hne => ?_⟩
    have hd := (qualifies_iff hrow).2 ⟨hd, hdbears⟩
    rw [precedes_eq_beats (hnumber c hc.toQualifies) (hnumber d hd)]
    exact hc.beats d hd hne

/-- A row of numbers recommends its field for the column that leads. -/
theorem Policy.recommend?_eq_some_iff (hrow : AllNumbers row) {f : String} :
    p.recommend? apis name (f, row) = some ⟨field, score⟩ ↔
      f = field ∧ ∃ c, Leads p apis name row c ∧ c.score = score := by
  rw [recommend?, leading?, Option.map_eq_some_iff]
  constructor
  · rintro ⟨c, hfind, heq⟩
    obtain ⟨rfl, rfl⟩ := Recommendation.mk.inj heq
    exact ⟨rfl, c, (find?_selectRow_eq_some_iff hrow).1 hfind, rfl⟩
  · rintro ⟨rfl, c, hleads, rfl⟩
    exact ⟨c, (find?_selectRow_eq_some_iff hrow).2 hleads, rfl⟩

/-- Rows of numbers recommend the fields in the rows of which a column leads, each with the score of
    that column. -/
theorem mem_filterMap_recommend?_iff {fields : List String} {rows : List (List Float)}
    (hrows : ∀ row ∈ rows, AllNumbers row) :
    ⟨field, score⟩ ∈ (fields.zip rows).filterMap (p.recommend? apis name) ↔
      ∃ (i : Nat) (row : List Float) (c : Candidate), fields[i]? = some field ∧
        rows[i]? = some row ∧ Leads p apis name row c ∧ c.score = score := by
  rw [List.mem_filterMap]
  constructor
  · rintro ⟨⟨f, row⟩, hentry, hrecommend⟩
    obtain ⟨i, hi⟩ := List.mem_iff_getElem?.1 hentry
    obtain ⟨hfield, hrow⟩ := List.getElem?_zip_eq_some.1 hi
    obtain ⟨rfl, c, hleads, hscore⟩ :=
      (Policy.recommend?_eq_some_iff (hrows row (List.mem_of_getElem? hrow))).1 hrecommend
    exact ⟨i, row, c, hfield, hrow, hleads, hscore⟩
  · rintro ⟨i, row, c, hfield, hrow, hleads, hscore⟩
    refine ⟨(field, row), List.mem_of_getElem? (List.getElem?_zip_eq_some.2 ⟨hfield, hrow⟩), ?_⟩
    exact (Policy.recommend?_eq_some_iff (hrows row (List.mem_of_getElem? hrow))).2
      ⟨rfl, c, hleads, hscore⟩

namespace Matcher

variable {r : Matcher (StateM σ)} {payload : Payload} {s : σ} {rs : Recommendations}

/-- The matrix of the scores in a run. -/
def matrix (r : Matcher (StateM σ)) (payload : Payload) (s : σ) : Except Error ScoreMatrix :=
  (r.fieldAnswer payload s).1.bind fun fields =>
    (r.apiAnswer payload s).1.bind fun apis => ScoreMatrix.build fields apis r.settings.scoring

/-- The matrix of a run in which all answers can be used holds the scores of the embeddings. -/
theorem exists_matrix_of_usable {fields apis : List Embedding}
    (hembeds : r.Embeds payload s fields apis) (husable : payload.Usable fields apis) :
    ∃ m, r.matrix payload s = .ok m ∧ m.rows = r.settings.scores fields apis ∧
      m.height = payload.fields.names.length ∧ m.width = payload.apis.length := by
  obtain ⟨m, hm, hshape⟩ := MatchingSettings.build_of_usable r.valid husable
  refine ⟨m, ?_, hshape⟩
  rw [matrix, hembeds.fieldAnswer_eq, hembeds.apiAnswer_eq]
  exact hm

/-- What a run recommends, told from its matrix of scores: where these are numbers, a field is
    recommended under a name exactly if a column of its row leads for the name, with the score of
    that column. No field comes twice under a name, no name twice, and none without a field. -/
theorem mem_recommend_iff (hrun : ((r.recommend payload).run s).1 = .ok rs) :
    ∃ m, r.matrix payload s = .ok m ∧
      m.height = payload.fields.names.length ∧ m.width = payload.apis.length ∧
      ((∀ i j x, m.get? i j = some x → x.isNaN = false) → ∀ name field score,
        (∃ held, rs.get? name = some held ∧ ⟨field, score⟩ ∈ held) ↔
          ∃ i row c, payload.fields.names[i]? = some field ∧ m.row? i = some row ∧
            Leads r.settings.policy payload.apis name row c ∧ c.score = score) ∧
      rs.names.Nodup ∧
      ∀ name held, rs.get? name = some held → held ≠ [] ∧ (held.map (·.field)).Nodup := by
  obtain ⟨fields, apis, hembeds, husable, rfl⟩ := recommend_eq_ok_iff.1 hrun
  obtain ⟨m, hm, hrows, hheight, hwidth⟩ := MatchingSettings.build_of_usable r.valid husable
  have hmatrix : r.matrix payload s = .ok m := by
    rw [matrix, hembeds.fieldAnswer_eq, hembeds.apiAnswer_eq]
    exact hm
  have hlisted := r.settings.listed_recommended husable
  have hoccupied := r.settings.occupied_recommended payload fields apis
  refine ⟨m, hmatrix, hheight, hwidth, fun hnumbers name field score => ?_,
    Table.nodup_names _, fun name held hheld => ⟨?_, ?_⟩⟩
  · have hall : ∀ row ∈ r.settings.scores fields apis, AllNumbers row := by
      intro row hrow x hx
      rw [← hrows] at hrow
      obtain ⟨i, hi⟩ := List.mem_iff_getElem?.1 hrow
      obtain ⟨j, hj⟩ := List.mem_iff_getElem?.1 hx
      refine hnumbers i j x ?_
      rw [ScoreMatrix.get?, ScoreMatrix.row?, hi]
      exact hj
    rw [← mem_listed_iff, hlisted, mem_filterMap_recommend?_iff hall]
    simp only [ScoreMatrix.row?, hrows]
  · rintro rfl
    exact hoccupied name hheld
  · have hname := hlisted name
    rw [listed, hheld, Option.getD_some] at hname
    rw [hname]
    refine (Policy.map_field_filterMap_recommend?_sublist _).nodup ?_
    rw [List.map_fst_zip]
    · exact payload.fields.nodup_names
    · rw [MatchingSettings.length_scores r.settings husable]

/-- Of two API methods of one name, the one that the field is closer to gives it its score. -/
theorem mem_recommend_iff_slope :
    ∃ rs held,
      (((ofDirections ⟨.cosine, 0.5, some ⟨2, by decide⟩, .standard⟩ rfl).recommend
        ⟨.ofList [("x", "east")], [⟨"Slope", "high"⟩, ⟨"Slope", "low"⟩]⟩).run ()).1 = .ok rs ∧
        rs.get? "Slope" = some held ∧ ⟨"x", 0.8⟩ ∈ held := by
  have hembeds : (ofDirections ⟨.cosine, 0.5, some ⟨2, by decide⟩, .standard⟩ rfl).Embeds
      ⟨.ofList [("x", "east")], [⟨"Slope", "high"⟩, ⟨"Slope", "low"⟩]⟩ ()
      [⟨[1, 0]⟩] [⟨[3, 4]⟩, ⟨[4, 3]⟩] := ⟨rfl, rfl⟩
  have hrun := recommend_of_usable hembeds (by decide +kernel)
  obtain ⟨m, hm, -, -, hiff, -⟩ := mem_recommend_iff hrun
  have hrows : m.rows = [[0.6, 0.8]] := by
    rw [matrix, hembeds.fieldAnswer_eq, hembeds.apiAnswer_eq] at hm
    obtain rfl := Except.ok.inj hm
    decide +kernel
  have hnumbers : ∀ i j x, m.get? i j = some x → x.isNaN = false := by
    intro i j x hx
    rw [ScoreMatrix.get?, ScoreMatrix.row?, hrows, Option.bind_eq_some_iff] at hx
    obtain ⟨row, hrow, hx⟩ := hx
    have hall : ∀ row ∈ [[(0.6 : Float), 0.8]], ∀ x ∈ row, x.isNaN = false := by decide +kernel
    exact hall row (List.mem_of_getElem? hrow) x (List.mem_of_getElem? hx)
  have hleads : Leads ⟨0.5, some ⟨2, by decide⟩⟩ [⟨"Slope", "high"⟩, ⟨"Slope", "low"⟩] "Slope"
      [0.6, 0.8] ⟨1, 0.8⟩ := by decide +kernel
  obtain ⟨held, hheld, hmem⟩ := (hiff hnumbers "Slope" "x" 0.8).2
    ⟨0, [0.6, 0.8], ⟨1, 0.8⟩, rfl, by rw [ScoreMatrix.row?, hrows]; rfl, hleads, rfl⟩
  exact ⟨_, held, hrun, hheld, hmem⟩

end Matcher

end SchemaMatch

import SchemaMatch.Proofs.Matcher.Meaning
import SchemaMatch.Proofs.Projection

/-!
# Scores

That the embeddings of a run are finite does not mean that what they are scored by is: a projection
narrows its result, and a component beyond the largest single-precision number becomes an infinity.
Whether a pair has a score (`Scoring.Scorable`) is thus told by what it is scored by, which must be
finite on both sides, or zero on one of them.

* `Scoring.isNaN_score_iff`: the score of a pair is a number exactly if the pair can be scored, and
  under the cosine every pair can (`Scoring.scorable_cosine`);
* `Scoring.score_mem`: a score that is a number lies between the least one of the scoring
  (`Scoring.least`) and `1`;
* `Matcher.matrix_scores`: all of this for the cells of the matrix of a run.
-/

namespace SchemaMatch

variable {σ : Type}

namespace Scoring

variable {scoring : Scoring} {dimension : Nat} {v w : Embedding}

/-- The least score that there may be. -/
def least : Scoring → Float
  | .cosine => -1
  | .projected _ => 0

/-- Whether a pair of embeddings can be scored: what it is scored by is finite, or zero on one side,
    where the other does not matter. -/
def Scorable (scoring : Scoring) (dimension : Nat) (v w : Embedding) : Prop :=
  ((scoring.prepared dimension v).isFinite = true ∧
      (scoring.prepared dimension w).isFinite = true) ∨
    (scoring.prepared dimension v).isZero = true ∨ (scoring.prepared dimension w).isZero = true

instance : Decidable (scoring.Scorable dimension v w) :=
  inferInstanceAs (Decidable ((_ = true ∧ _ = true) ∨ _ = true ∨ _ = true))

theorem scorable_cosine (hv : v.Usable dimension) (hw : w.Usable dimension) :
    Scorable .cosine dimension v w :=
  .inl ⟨hv.finite, hw.finite⟩

/-- Projections are not below zero, and have one dimension. -/
theorem nonnegative_prepared (form : ProjectionForm) (dimension : Nat) (v w : Embedding) :
    (prepared (.projected form) dimension v).Nonnegative ∧
      (prepared (.projected form) dimension v).dimension =
        (prepared (.projected form) dimension w).dimension := by
  have hlayers : Projection.drawLayers dimension form.widths (.ofSeed form.seed) ≠ [] :=
    Projection.drawLayers_ne_nil (by simp [ProjectionForm.widths]) _
  exact ⟨Projection.nonnegative_project hlayers v, Projection.dimension_project_eq hlayers v w⟩

/-- A score is a number exactly if the pair can be scored. -/
theorem isNaN_score_iff (hv : v.Usable dimension) (hw : w.Usable dimension) :
    (scoring.score dimension v w).isNaN = true ↔ ¬scoring.Scorable dimension v w := by
  cases scoring with
  | cosine =>
    have hnumber := Double.isNaN_left_of_le (Embedding.cosine_mem hv.finite hw.finite).2
    rw [score, prepared, prepared, hnumber]
    exact iff_of_false Bool.false_ne_true (not_not.2 (scorable_cosine hv hw))
  | projected form =>
    obtain ⟨hv', hdimension⟩ := nonnegative_prepared form dimension v w
    rw [score,
      Embedding.isNaN_cosine_iff hv' (nonnegative_prepared form dimension w w).1 hdimension]
    simp only [Scorable, not_or, not_and_or, Bool.not_eq_true]

/-- A score that is a number lies between the least one and `1`. -/
theorem score_mem (hv : v.Usable dimension) (hw : w.Usable dimension)
    (hscorable : scoring.Scorable dimension v w) :
    scoring.least ≤ scoring.score dimension v w ∧ scoring.score dimension v w ≤ 1 := by
  cases scoring with
  | cosine => exact Embedding.cosine_mem hv.finite hw.finite
  | projected form =>
    have hnumber := (isNaN_score_iff hv hw).not_left.2 hscorable
    obtain ⟨hv', hdimension⟩ := nonnegative_prepared form dimension v w
    exact Embedding.cosine_mem_of_nonnegative hv' (nonnegative_prepared form dimension w w).1
      hdimension (Bool.not_eq_true _ ▸ hnumber)

end Scoring

namespace Matcher

variable {r : Matcher (StateM σ)} {payload : Payload} {s : σ} {fields apis : List Embedding}

/-- The cells of the matrix of a run are the scores of the pairs. -/
theorem get?_eq_some_score {m : ScoreMatrix} (hrows : m.rows = r.settings.scores fields apis)
    {i j : Nat} {v w : Embedding} (hv : fields[i]? = some v) (hw : apis[j]? = some w) :
    m.get? i j = some (r.settings.scoring.score (firstDimension (.ok fields)) v w) := by
  rw [ScoreMatrix.get?, ScoreMatrix.row?, hrows, MatchingSettings.scores, List.getElem?_map, hv,
    Option.map_some, Option.bind_some, List.getElem?_map, hw, Option.map_some]

/-- In a run in which all answers can be used, the matrix has a cell for each pair of embeddings. It
    is a number between the least score and `1` if the pair can be scored, as every pair can under
    the cosine, and it is not a number otherwise. -/
theorem matrix_scores (hembeds : r.Embeds payload s fields apis)
    (husable : payload.Usable fields apis) :
    ∃ m, r.matrix payload s = .ok m ∧
      m.height = payload.fields.names.length ∧ m.width = payload.apis.length ∧
      ∀ i j v w, fields[i]? = some v → apis[j]? = some w → ∃ x, m.get? i j = some x ∧
        (r.settings.scoring.Scorable (firstDimension (.ok fields)) v w →
          x.isNaN = false ∧ r.settings.scoring.least ≤ x ∧ x ≤ 1) ∧
        (¬r.settings.scoring.Scorable (firstDimension (.ok fields)) v w → x.isNaN = true) ∧
        (r.settings.strategy = .cosine →
          r.settings.scoring.Scorable (firstDimension (.ok fields)) v w) := by
  obtain ⟨m, hmatrix, hrows, hheight, hwidth⟩ := exists_matrix_of_usable hembeds husable
  refine ⟨m, hmatrix, hheight, hwidth, fun i j v w hv hw => ?_⟩
  have hvusable := husable.usable v (List.mem_append_left _ (List.mem_of_getElem? hv))
  have hwusable := husable.usable w (List.mem_append_right _ (List.mem_of_getElem? hw))
  refine ⟨_, get?_eq_some_score hrows hv hw, fun hscorable => ⟨?_, ?_⟩, ?_, fun hcosine => ?_⟩
  · exact Bool.eq_false_iff.2 ((Scoring.isNaN_score_iff hvusable hwusable).not_left.2 hscorable)
  · exact Scoring.score_mem hvusable hwusable hscorable
  · exact (Scoring.isNaN_score_iff hvusable hwusable).2
  · rw [MatchingSettings.scoring, hcosine]
    exact Scoring.scorable_cosine hvusable hwusable

/-- Projections that keep to the single-precision numbers are scored from `0` on. -/
theorem matrix_scores_directions :
    ∃ m x, (ofDirections ⟨.projected, 0.5, none, ⟨[], 1, 42⟩⟩ rfl).matrix
        ⟨.ofList [("x", "east")], [⟨"Slope", "low"⟩]⟩ () = .ok m ∧
      m.get? 0 0 = some x ∧ x.isNaN = false ∧ 0 ≤ x ∧ x ≤ 1 := by
  have hembeds : (ofDirections ⟨.projected, 0.5, none, ⟨[], 1, 42⟩⟩ rfl).Embeds
      ⟨.ofList [("x", "east")], [⟨"Slope", "low"⟩]⟩ () [⟨[1, 0]⟩] [⟨[4, 3]⟩] := ⟨rfl, rfl⟩
  obtain ⟨m, hmatrix, -, -, hcells⟩ := matrix_scores hembeds (by decide +kernel)
  obtain ⟨x, hx, hrange, -⟩ := hcells 0 0 _ _ rfl rfl
  exact ⟨m, x, hmatrix, hx, hrange (by decide +kernel)⟩

/-- An embedding whose components are the largest single-precision number. -/
def farthest : Embedding := ⟨[.ofBits 0x7F7FFFFF, .ofBits 0x7F7FFFFF]⟩

/-- A matcher that projects this embedding beyond the single-precision numbers. -/
def ofFarthest : Matcher (StateM Unit) :=
  ⟨.ofTable [("far", farthest.components)], ⟨.projected, 0.5, none, ⟨[], 1, 77⟩⟩, rfl⟩

/-- Where a projection of finite embeddings overflows, there is no score, not even of an embedding
    with itself. -/
theorem isNaN_matrix_farthest :
    ofFarthest.Embeds ⟨.ofList [("x", "far")], [⟨"Slope", "far"⟩]⟩ () [farthest] [farthest] ∧
      Payload.Usable ⟨.ofList [("x", "far")], [⟨"Slope", "far"⟩]⟩ [farthest] [farthest] ∧
      ∃ m x, ofFarthest.matrix ⟨.ofList [("x", "far")], [⟨"Slope", "far"⟩]⟩ () = .ok m ∧
        m.get? 0 0 = some x ∧ x.isNaN = true := by
  have hembeds : ofFarthest.Embeds
      ⟨.ofList [("x", "far")], [⟨"Slope", "far"⟩]⟩ () [farthest] [farthest] := ⟨rfl, rfl⟩
  have husable : Payload.Usable
      ⟨.ofList [("x", "far")], [⟨"Slope", "far"⟩]⟩ [farthest] [farthest] := by decide +kernel
  obtain ⟨m, hmatrix, hrows, -, -⟩ := exists_matrix_of_usable hembeds husable
  exact ⟨hembeds, husable, m, _, hmatrix, get?_eq_some_score hrows rfl rfl, by decide +kernel⟩

end Matcher

end SchemaMatch

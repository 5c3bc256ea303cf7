import SchemaMatch.ScoreMatrix

/-!
# The cells of a score matrix

A matrix built from embeddings of one dimension scores each field with each API method on its own: a
cell is the cosine of the two embeddings, each prepared as the scoring asks for
(`Scoring.prepared`). With at least one embedding on both sides, a dimension that is not zero, and a
valid form, nothing can fail: `ScoreMatrix.exists_build`.
-/

namespace SchemaMatch

/-- A projection can be drawn for any valid form and any dimension but zero. -/
theorem Projection.seeded_eq_ok {inputs : Nat} {form : ProjectionForm}
    (hform : form.validate = .ok ()) (hinputs : inputs ≠ 0) :
    Projection.seeded inputs form =
      .ok ⟨Projection.drawLayers inputs form.widths (.ofSeed form.seed)⟩ := by
  simp [Projection.seeded, hform, hinputs, bind, Except.bind, pure, Except.pure]

/-- A projection that was drawn has the layers of its form, which is valid. -/
theorem Projection.eq_of_seeded {inputs : Nat} {form : ProjectionForm} {p : Projection}
    (h : Projection.seeded inputs form = .ok p) :
    form.validate = .ok () ∧ inputs ≠ 0 ∧
      p = ⟨Projection.drawLayers inputs form.widths (.ofSeed form.seed)⟩ := by
  rw [Projection.seeded] at h
  cases hform : form.validate with
  | error e =>
    rw [hform] at h
    cases h
  | ok _ =>
    by_cases hinputs : inputs = 0
    · simp only [hform, hinputs] at h
      cases h
    · simp only [hform, hinputs] at h
      cases h
      exact ⟨rfl, hinputs, rfl⟩

/-- Whether the form of the projection, if there is one, is valid. -/
def Scoring.Valid : Scoring → Prop
  | .cosine => True
  | .projected form => form.validate = .ok ()

/-- What an embedding of a dimension is scored by: itself, or its projection. -/
def Scoring.prepared (scoring : Scoring) (dimension : Nat) (v : Embedding) : Embedding :=
  match scoring with
  | .cosine => v
  | .projected form =>
    Projection.project ⟨Projection.drawLayers dimension form.widths (.ofSeed form.seed)⟩ v

/-- The score of a pair of embeddings of a dimension. -/
def Scoring.score (scoring : Scoring) (dimension : Nat) (v w : Embedding) : Float :=
  (scoring.prepared dimension v).cosine (scoring.prepared dimension w)

namespace ScoreMatrix

variable {fields apis : List Embedding} {scoring : Scoring} {dimension : Nat}

/-- The matrix of embeddings of one dimension exists, and its cells are the scores of the pairs. -/
theorem exists_build (hfields : fields ≠ []) (hapis : apis ≠ []) (hpos : dimension ≠ 0)
    (hdimension : ∀ v ∈ fields ++ apis, v.dimension = dimension) (hscoring : scoring.Valid) :
    ∃ m, build fields apis scoring = .ok m ∧ m.width = apis.length ∧
      m.rows = fields.map fun v => apis.map (scoring.score dimension v) := by
  have hhead : (fields.head hfields).dimension = dimension :=
    hdimension _ (List.mem_append_left _ (List.head_mem hfields))
  have hfind : (fields ++ apis).find? (·.dimension ≠ dimension) = none := by
    rw [List.find?_eq_none]
    exact fun v hv => by simpa using hdimension v hv
  rw [build, dif_neg hfields, dif_neg hapis]
  simp only [hhead, hfind]
  cases scoring with
  | cosine => exact ⟨_, rfl, rfl, rfl⟩
  | projected form =>
    simp only [Projection.seeded_eq_ok hscoring hpos]
    refine ⟨_, rfl, ?_, ?_⟩
    · simp [cosines]
    · simp [cosines, Scoring.score, Scoring.prepared, Function.comp_def]

/-! ## Reading cells -/

variable {m : ScoreMatrix}

/-- A property of all cells is one of all rows. -/
theorem forall_get?_iff {P : Float → Prop} :
    (∀ i j x, m.get? i j = some x → P x) ↔ ∀ row ∈ m.rows, ∀ x ∈ row, P x := by
  constructor
  · intro h row hrow x hx
    obtain ⟨i, hi⟩ := List.mem_iff_getElem?.1 hrow
    obtain ⟨j, hj⟩ := List.mem_iff_getElem?.1 hx
    refine h i j x ?_
    rw [get?, row?, hi]
    exact hj
  · intro h i j x hx
    obtain ⟨row, hrow, hx⟩ := Option.bind_eq_some_iff.1 hx
    exact h row (List.mem_of_getElem? hrow) x (List.mem_of_getElem? hx)

/-- A symmetric relation between any two cells of a row is one of all rows. -/
theorem forall_get?_iff_pairwise {R : Float → Float → Prop} [Std.Symm R] :
    (∀ i j k x y, m.get? i j = some x → m.get? i k = some y → j ≠ k → R x y) ↔
      ∀ row ∈ m.rows, row.Pairwise R := by
  constructor
  · intro h row hrow
    obtain ⟨i, hi⟩ := List.mem_iff_getElem?.1 hrow
    rw [List.pairwise_iff_getElem]
    intro j k hj hk hjk
    refine h i j k _ _ ?_ ?_ (Nat.ne_of_lt hjk)
    · rw [get?, row?, hi]
      exact List.getElem?_eq_getElem hj
    · rw [get?, row?, hi]
      exact List.getElem?_eq_getElem hk
  · intro h i j k x y hx hy hne
    obtain ⟨row, hrow, hx⟩ := Option.bind_eq_some_iff.1 hx
    rw [get?, hrow, Option.bind_some] at hy
    obtain ⟨hj, rfl⟩ := List.getElem?_eq_some_iff.1 hx
    obtain ⟨hk, rfl⟩ := List.getElem?_eq_some_iff.1 hy
    have hpairwise := List.pairwise_iff_getElem.1 (h row (List.mem_of_getElem? hrow))
    rcases Nat.lt_or_gt_of_ne hne with hlt | hlt
    · exact hpairwise j k hj hk hlt
    · exact Std.Symm.symm _ _ (hpairwise k j hk hj hlt)

end ScoreMatrix

end SchemaMatch

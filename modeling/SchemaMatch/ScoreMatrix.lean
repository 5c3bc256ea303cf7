import SchemaMatch.Projection

/-!
# Score matrices

A score matrix has a row for each field and a column for each API method; its cells are the scores
of the pairs. It has at least one row and one column, and all rows have one length. It is built from
the embeddings of both sides (`ScoreMatrix.build`) or taken from given rows (`ScoreMatrix.ofRows`).
-/

namespace SchemaMatch

/-- How a pair of embeddings is scored. -/
inductive Scoring
  /-- By the cosine similarity of the embeddings. -/
  | cosine
  /-- By the cosine similarity of their projections. -/
  | projected (form : ProjectionForm)

/-- Scores in rows and columns. -/
structure ScoreMatrix where
  /-- The rows, each with its scores from left to right. -/
  rows : List (List Float)
  /-- The number of columns. -/
  width : Nat
  rows_ne_nil : rows ≠ []
  width_pos : 0 < width
  length_row : ∀ row ∈ rows, row.length = width

namespace ScoreMatrix

/-- The number of rows. -/
def height (m : ScoreMatrix) : Nat := m.rows.length

/-- A row. -/
def row? (m : ScoreMatrix) (i : Nat) : Option (List Float) := m.rows[i]?

/-- A cell. -/
def get? (m : ScoreMatrix) (i j : Nat) : Option Float := (m.row? i).bind (·[j]?)

/-- The matrix with the given rows. -/
def ofRows (rows : List (List Float)) : Except Error ScoreMatrix :=
  match h : rows with
  | [] => .error (.emptyInput fieldCollection)
  | first :: later =>
    if hfirst : first.length = 0 then .error (.emptyInput apiCollection)
    else
      match hlater : later.find? (·.length ≠ first.length) with
      | some row => .error (.dimensionMismatch first.length row.length)
      | none =>
        .ok
          { rows
            width := first.length
            rows_ne_nil := by simp [h]
            width_pos := Nat.pos_of_ne_zero hfirst
            length_row := by
              simp only [List.find?_eq_none, decide_eq_true_eq, Decidable.not_not] at hlater
              rw [h]
              exact List.forall_mem_cons.2 ⟨rfl, hlater⟩ }

/-- The matrix of the cosine similarities of two lists of embeddings. -/
def cosines (fields apis : List Embedding) (hfields : fields ≠ []) (hapis : apis ≠ []) :
    ScoreMatrix where
  rows := fields.map fun field => apis.map fun api => field.cosine api
  width := apis.length
  rows_ne_nil := by simpa using hfields
  width_pos := List.length_pos_iff.2 hapis
  length_row := by simp

/-- The matrix of the scores of two lists of embeddings, which must all have the dimension of the
    first. -/
def build (fields apis : List Embedding) (scoring : Scoring) : Except Error ScoreMatrix :=
  if hfields : fields = [] then .error (.emptyInput fieldCollection)
  else if hapis : apis = [] then .error (.emptyInput apiCollection)
  else
    let dimension := (fields.head hfields).dimension
    match (fields ++ apis).find? (·.dimension ≠ dimension) with
    | some v => .error (.dimensionMismatch dimension v.dimension)
    | none =>
      match scoring with
      | .cosine => .ok (cosines fields apis hfields hapis)
      | .projected form => do
        let p ← Projection.seeded dimension form
        return cosines (fields.map p.project) (apis.map p.project) (by simpa using hfields)
          (by simpa using hapis)

end ScoreMatrix

end SchemaMatch

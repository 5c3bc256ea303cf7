import SchemaMatch.RowMajor
import SchemaMatch.ScoreMatrix

/-!
# Packed score matrices

A packed matrix keeps its cells in one list, row after row, beside the number of its rows and that
of its columns. A cell and a row are found by their places in the list, and all rows in turn by
cutting the list into pieces. Its type ties neither number to the cells.
-/

namespace SchemaMatch

/-- Scores, row after row in one list. -/
structure PackedMatrix where
  /-- The number of rows. -/
  height : Nat
  /-- The number of columns. -/
  width : Nat
  /-- The scores of the first row from left to right, then those of the second one, and so on. -/
  cells : List Float

namespace PackedMatrix

/-- A cell. -/
def get? (m : PackedMatrix) (i j : Nat) : Option Float :=
  if i < m.height ∧ j < m.width then m.cells[i * m.width + j]? else none

/-- A row. -/
def row? (m : PackedMatrix) (i : Nat) : Option (List Float) :=
  if i < m.height then slice? (i * m.width) ((i + 1) * m.width) m.cells else none

/-- The rows, one after the other. -/
def rows (m : PackedMatrix) : List (List Float) := pieces m.width m.cells

/-- The packed matrix with the given rows. -/
def ofRows (rows : List (List Float)) : Except Error PackedMatrix :=
  let width := (rows.head?.map List.length).getD 0
  if rows.isEmpty then .error (.emptyInput fieldCollection)
  else if width = 0 then .error (.emptyInput apiCollection)
  else
    match rows.find? (·.length ≠ width) with
    | some row => .error (.dimensionMismatch width row.length)
    | none => .ok ⟨rows.length, width, rows.flatten⟩

/-- The packed matrix of the cosine similarities of two lists of embeddings, to whose cells those of
    one field after the other are appended. -/
def cosines (fields apis : List Embedding) : PackedMatrix where
  height := fields.length
  width := apis.length
  cells := fields.foldl (fun cells field => cells ++ apis.map fun api => field.cosine api) []

/-- The packed matrix of the scores of two lists of embeddings, which must all have the dimension of
    the first. -/
def build (fields apis : List Embedding) (scoring : Scoring) : Except Error PackedMatrix :=
  match fields with
  | [] => .error (.emptyInput fieldCollection)
  | first :: _ =>
    if apis.isEmpty then .error (.emptyInput apiCollection)
    else
      match (fields ++ apis).find? (·.dimension ≠ first.dimension) with
      | some v => .error (.dimensionMismatch first.dimension v.dimension)
      | none =>
        match scoring with
        | .cosine => .ok (cosines fields apis)
        | .projected form => do
          let p ← Projection.seeded first.dimension form
          return cosines (fields.map p.project) (apis.map p.project)

end PackedMatrix

/-- The cells of a matrix, packed. -/
def ScoreMatrix.packed (m : ScoreMatrix) : PackedMatrix := ⟨m.height, m.width, m.rows.flatten⟩

end SchemaMatch

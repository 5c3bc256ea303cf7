import SchemaMatch.ScoreMatrix

/-!
# Selection

In each row of a score matrix, the columns are ranked by descending score, and of equal scores the
left one is better. Without a number of candidates to consider only the best column is one; with
such a number the best ones are. Candidates below the threshold are dropped afterwards.

The two ways differ on scores that are not numbers. Ranking puts these first, while the search for
the best column asks only whether a score is greater than the best so far, so that one that is not a
number stays the best if it comes first and is never chosen later.
-/

namespace SchemaMatch

/-- A number of candidates, at least one. -/
abbrev TopK := { count : UInt64 // count ≠ 0 }

/-- Reads a number of candidates. -/
def TopK.decoder : Json.Decoder TopK := fun depth => do
  let count ← Json.Decoder.natural "a nonzero usize" depth
  if h : count ≠ 0 then return ⟨count, h⟩
  else Json.Reader.fail (.invalidValue (.integer 0) "a nonzero usize") .behind

/-- The JSON form of a number of candidates. -/
def TopK.toJson (k : TopK) : Json.Value := .ofNatural k.val

/-- A column selected for a row. -/
structure Candidate where
  /-- The place of the column. -/
  column : Nat
  /-- The score in the row. -/
  score : Float

namespace Candidate

open Json in
/-- The fields of a candidate. -/
def record : Record Candidate where
  title := "Candidate"
  fields :=
    [ Record.field "api_index" .required (Decoder.natural "usize")
        fun c column => { c with column := column.toNat },
      Record.field "score" .required Decoder.double fun c score => { c with score } ]
  blank := ⟨0, 0⟩

/-- The JSON form of a candidate. -/
def toJson (c : Candidate) : Json.Value :=
  .object [("api_index", .number (.whole c.column)), ("score", .ofDouble c.score)]

end Candidate

/-- Which candidates are selected. -/
structure Policy where
  /-- The least score of a candidate that is kept. -/
  threshold : Float
  /-- The number of best columns considered, or only the best one. -/
  topK : Option TopK

namespace Policy

open Json in
/-- The fields of a policy. -/
def record : Record Policy where
  title := "SelectionPolicy"
  fields :=
    [ Record.field "threshold" .required Decoder.double
        fun p threshold => { p with threshold },
      Record.field "topK" .optional (Decoder.optional TopK.decoder) fun p topK => { p with topK } ]
  blank := ⟨0, none⟩

/-- The JSON form of a policy. -/
def toJson (p : Policy) : Json.Value :=
  .object [("threshold", .ofDouble p.threshold), ("topK", .ofOption TopK.toJson p.topK)]

end Policy

/-! ## Ranking -/

/-- The columns of a row. -/
def candidates (row : List Float) : List Candidate :=
  row.mapIdx fun column score => ⟨column, score⟩

/-- Whether the first score ranks at least as high as the second: what is not a number ranks
    highest, and the zeros rank alike. -/
def ranksAtLeast (x y : Float) : Bool :=
  x.isNaN || (!y.isNaN && decide (y ≤ x))

/-- The columns of a row, the best one first. -/
def ranked (row : List Float) : List Candidate :=
  (candidates row).mergeSort fun c d => ranksAtLeast c.score d.score

/-- The better one of the best candidate so far and another one. -/
def better (best : Option Candidate) (c : Candidate) : Option Candidate :=
  match best with
  | none => some c
  | some held => if held.score < c.score then some c else some held

/-- The first column with the greatest score. -/
def best? (row : List Float) : Option Candidate :=
  (candidates row).foldl better none

/-- The candidates selected in a row, the best one first. -/
def Policy.selectRow (p : Policy) (row : List Float) : List Candidate :=
  let considered :=
    match p.topK with
    | none => (best? row).toList
    | some k => (ranked row).take k.val.toNat
  considered.filter fun c => p.threshold ≤ c.score

/-- The candidates selected in each row. -/
def Policy.select (p : Policy) (m : ScoreMatrix) : List (List Candidate) :=
  m.rows.map p.selectRow

end SchemaMatch

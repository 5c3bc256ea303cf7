import Mathlib.Algebra.BigOperators.Group.List.Basic
import SchemaMatch.RowMajor

/-!
# Rows are found where they were put

Rows of one length that were put into one list are found in it by their places: dropping as many
rows as a place says leaves the later ones (`drop_mul_flatten`), so that a row starts at a multiple
of the length (`slice?_flatten`), and a cell lies behind that start by its own place in the row
(`getElem?_flatten`). Cutting the list gives all rows back and leaves nothing over
(`pieces_flatten`). Where the pieces are taken one at a time, what is left after one is what the
later cells would be at the start (`Cutting.next?_ofList`).
-/

namespace SchemaMatch

variable {α : Type} {width : ℕ} {rows : List (List α)}

/-- A row in front of other cells is the first piece. -/
theorem pieces_append (hwidth : 0 < width) {row : List α} (hrow : row.length = width)
    (cells : List α) : pieces width (row ++ cells) = row :: pieces width cells := by
  have hle : width ≤ (row ++ cells).length := by
    rw [List.length_append]
    omega
  rw [pieces, if_pos ⟨hwidth, hle⟩, List.take_left' hrow, List.drop_left' hrow]

theorem pieces_nil (hwidth : 0 < width) : pieces width ([] : List α) = [] := by
  rw [pieces, if_neg fun h => absurd h.2 (Nat.not_le.2 hwidth)]

/-- Cutting gives the rows back. -/
theorem pieces_flatten (hwidth : 0 < width) (hrows : ∀ row ∈ rows, row.length = width) :
    pieces width rows.flatten = rows := by
  induction rows with
  | nil => exact pieces_nil hwidth
  | cons row later ih =>
    rw [List.forall_mem_cons] at hrows
    rw [List.flatten_cons, pieces_append hwidth hrows.1, ih hrows.2]

theorem length_flatten_eq_mul (hrows : ∀ row ∈ rows, row.length = width) :
    rows.flatten.length = rows.length * width := by
  rw [List.length_flatten, List.sum_eq_card_nsmul _ width (by simpa using hrows), List.length_map,
    Nat.nsmul_eq_mul]

/-- Dropping the cells of some rows drops the rows. -/
theorem drop_mul_flatten (hrows : ∀ row ∈ rows, row.length = width) (i : ℕ) :
    rows.flatten.drop (i * width) = (rows.drop i).flatten := by
  induction i generalizing rows with
  | zero => rw [Nat.zero_mul, List.drop_zero, List.drop_zero]
  | succ i ih =>
    cases rows with
    | nil => simp
    | cons row later =>
      rw [List.forall_mem_cons] at hrows
      rw [Nat.succ_mul, Nat.add_comm, ← List.drop_drop, List.flatten_cons, List.drop_left' hrows.1,
        ih hrows.2, List.drop_succ_cons]

/-- A row reaches from one multiple of the length to the next. -/
theorem slice?_flatten (hrows : ∀ row ∈ rows, row.length = width) {i : ℕ} (hi : i < rows.length) :
    slice? (i * width) ((i + 1) * width) rows.flatten = some rows[i] := by
  have hstop : (i + 1) * width ≤ rows.flatten.length := by
    rw [length_flatten_eq_mul hrows]
    exact Nat.mul_le_mul_right width hi
  have hlength : (i + 1) * width - i * width = width := by
    rw [Nat.succ_mul, Nat.add_sub_cancel_left]
  rw [slice?, if_pos ⟨Nat.mul_le_mul_right width i.le_succ, hstop⟩, hlength, drop_mul_flatten hrows,
    List.drop_eq_getElem_cons hi, List.flatten_cons,
    List.take_left' (hrows _ (List.getElem_mem hi))]

/-- A cell lies behind the start of its row. -/
theorem getElem?_flatten (hrows : ∀ row ∈ rows, row.length = width) (i : ℕ) {j : ℕ}
    (hj : j < width) : rows.flatten[i * width + j]? = rows[i]?.bind (·[j]?) := by
  rw [← List.getElem?_drop, drop_mul_flatten hrows]
  rcases Nat.lt_or_ge i rows.length with hi | hi
  · have hlt : j < rows[i].length := (hrows _ (List.getElem_mem hi)).symm ▸ hj
    rw [List.drop_eq_getElem_cons hi, List.flatten_cons, List.getElem?_append_left hlt,
      List.getElem?_eq_getElem hi, Option.bind_some]
  · rw [List.drop_eq_nil_of_le hi, List.getElem?_eq_none hi]
    rfl

namespace Cutting

/-- The next piece is the first one, and it leaves what the later cells are before any is taken. -/
theorem next?_ofList (hwidth : 0 < width) (cells : List α) :
    (ofList width cells).next? =
      if width ≤ cells.length then some (cells.take width, ofList width (cells.drop width))
      else none := by
  have hahead : (ofList width cells).ahead.length = cells.length - cells.length % width := by
    rw [ofList, List.length_take, Nat.min_eq_left (Nat.sub_le _ _)]
  rw [next?, hahead]
  by_cases hle : width ≤ cells.length
  · -- No cell of the first piece is left over.
    have hmod : cells.length % width = (cells.length - width) % width := Nat.mod_eq_sub_mod hle
    have hwhole : width ≤ cells.length - cells.length % width := by
      have := Nat.mod_le (cells.length - width) width
      omega
    have hlater : (cells.drop width).length - (cells.drop width).length % width =
        cells.length - cells.length % width - width := by
      rw [List.length_drop, ← hmod, Nat.sub_right_comm]
    rw [if_pos hle, if_neg (Nat.not_lt.2 hwhole), ofList, ofList, hlater, List.take_take,
      Nat.min_eq_left hwhole, List.drop_take, List.drop_drop, Nat.add_sub_of_le hwhole]
  · have hmod : cells.length % width = cells.length := Nat.mod_eq_of_lt (Nat.not_le.1 hle)
    rw [if_neg hle, hmod, Nat.sub_self, if_pos hwidth]

end Cutting

end SchemaMatch

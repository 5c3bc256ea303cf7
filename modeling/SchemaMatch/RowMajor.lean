/-!
# Rows in one list

Rows of one length can be kept in one list, one after the other. A stretch of such a list is read by
the places where it starts and stops (`slice?`), and the rows in turn by cutting pieces of their
length off the list, from the left, for as long as it has that many cells (`pieces`). What is left
over then belongs to no piece. The pieces can also be taken one at a time (`Cutting.next?`); what is
left over is then set aside before the first one.
-/

namespace SchemaMatch

variable {α : Type}

/-- The cells of a list from one place up to another one, which must not lie behind its end. -/
def slice? (start stop : Nat) (cells : List α) : Option (List α) :=
  if start ≤ stop ∧ stop ≤ cells.length then some ((cells.drop start).take (stop - start)) else none

/-- The pieces of a length that can be cut off a list, one after the other. -/
def pieces (width : Nat) (cells : List α) : List (List α) :=
  if 0 < width ∧ width ≤ cells.length then
    cells.take width :: pieces width (cells.drop width)
  else []
termination_by cells.length
decreasing_by
  rw [List.length_drop]
  omega

/-- A list from which pieces of a length are being taken. -/
structure Cutting (α : Type) (width : Nat) where
  /-- The cells of the pieces that have not been taken yet. -/
  ahead : List α
  /-- The cells at the end that make up no piece. -/
  remainder : List α

namespace Cutting

variable {width : Nat}

/-- The list before the first piece is taken. -/
def ofList (width : Nat) (cells : List α) : Cutting α width :=
  let whole := cells.length - cells.length % width
  ⟨cells.take whole, cells.drop whole⟩

/-- The next piece, and the list without it. -/
def next? (c : Cutting α width) : Option (List α × Cutting α width) :=
  if c.ahead.length < width then none
  else some (c.ahead.take width, { c with ahead := c.ahead.drop width })

/-- Each piece that is taken makes the list shorter. -/
theorem length_ahead_lt (hwidth : 0 < width) {c later : Cutting α width} {piece : List α}
    (h : c.next? = some (piece, later)) : later.ahead.length < c.ahead.length := by
  rw [next?] at h
  split at h
  · cases h
  · cases h
    rw [List.length_drop]
    omega

end Cutting

end SchemaMatch

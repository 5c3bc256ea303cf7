import SchemaMatch.RowMajor

/-!
# Scalar products by pairs

A scalar product can be computed two places at a time. Pairs are taken from both lists in turn, and
the products of their first components are added to one sum, those of their second components to
another one (`addPairs`); what an odd number of components leaves over goes to the first sum
(`addRemainders`), and the two sums are added at the end (`dotByPairs`). The product and the
addition are parameters: the same steps can be taken in rounded and in exact arithmetic. A step that
reads a component which a pair does not have fails.
-/

namespace SchemaMatch

namespace Embedding

variable {α β : Type} [Add β]

/-- Adds the products of the pairs that both lists still have to two sums, and gives the sums and
    what is left of the lists. -/
def addPairs (product : α → α → β) (even odd : β) (v w : Cutting α 2) :
    Option (β × β × Cutting α 2 × Cutting α 2) :=
  match _taken : v.next? with
  | none => some (even, odd, v, w)
  | some (x, v') =>
    match w.next? with
    | none => some (even, odd, v', w)
    | some (y, w') => do
      let first := product (← x[0]?) (← y[0]?)
      let second := product (← x[1]?) (← y[1]?)
      addPairs product (even + first) (odd + second) v' w'
termination_by v.ahead.length
decreasing_by exact Cutting.length_ahead_lt Nat.two_pos _taken

/-- Adds the products of the components that belong to no pair to a sum. -/
def addRemainders (product : α → α → β) (sum : β) (v w : Cutting α 2) : β :=
  (v.remainder.zip w.remainder).foldl (fun sum (a, b) => sum + product a b) sum

/-- The scalar product of two lists, both sums starting with `zero`. -/
def dotByPairs (product : α → α → β) (zero : β) (v w : List α) : Option β := do
  let (even, odd, v, w) ← addPairs product zero zero (.ofList 2 v) (.ofList 2 w)
  return addRemainders product even v w + odd

end Embedding

end SchemaMatch

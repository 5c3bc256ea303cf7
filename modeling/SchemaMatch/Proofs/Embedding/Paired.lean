import Mathlib.Algebra.BigOperators.Fin
import Mathlib.Algebra.Group.Nat.Even
import Mathlib.Tactic.Abel
import SchemaMatch.Embedding.Paired
import SchemaMatch.Proofs.Embedding
import SchemaMatch.Proofs.RowMajor

/-!
# Scalar products by pairs use every component once

Of two lists of one length, the pairs that are taken in turn stand at the same places, and an odd
number of components leaves one over in each. So the first of the two sums gets the products at even
places and the second one those at odd places, each from the left (`splitSum_ofFn`), whatever the
arithmetic is. That no place is left out or used twice shows where addition is exact: there the
result is the sum of all products (`splitSum_eq_add_sum`).

* `dotByPairs_eq_splitSum`: the steps never fail, and they come to a `splitSum` of the products;
* `dotByPairs_eq_sumAt`: in double precision this is the scalar product, the sum of the two sums;
  in exact arithmetic it is the sum over all places.
-/

namespace SchemaMatch

namespace Embedding

variable {α β : Type} {product : α → α → β}

/-! ## The loop over pairs -/

section Loop

variable [Add β] {even odd : β}

/-- One step of the loop takes the first two components of both lists. -/
theorem addPairs_cons_cons (a a' b b' : α) (v w : List α) :
    addPairs product even odd (.ofList 2 (a :: a' :: v)) (.ofList 2 (b :: b' :: w)) =
      addPairs product (even + product a b) (odd + product a' b') (.ofList 2 v) (.ofList 2 w) := by
  have hnext (c c' : α) (u : List α) :
      (Cutting.ofList 2 (c :: c' :: u)).next? = some ([c, c'], .ofList 2 u) := by
    simp [Cutting.next?_ofList]
  rw [addPairs, hnext, hnext]
  rfl

/-- Fewer than two components end the loop. -/
theorem addPairs_of_length_lt {v : List α} (h : v.length < 2) (w : Cutting α 2) :
    addPairs product even odd (.ofList 2 v) w = some (even, odd, .ofList 2 v, w) := by
  rw [addPairs, Cutting.next?_ofList Nat.two_pos, if_neg (Nat.not_le.2 h)]

/-- The loop over the pairs of two lists of one length ends, and with what it leaves of them its two
    sums come to those of all products. -/
theorem exists_addPairs_eq (product : α → α → β) :
    ∀ {v w : List α}, v.length = w.length → ∀ even odd : β,
      ∃ s s' v' w', addPairs product even odd (.ofList 2 v) (.ofList 2 w) = some (s, s', v', w') ∧
        addRemainders product s v' w' + s' = splitSum even odd (v.zipWith product w)
  | [], [], _, _, _ => ⟨_, _, _, _, addPairs_of_length_lt (by simp) _, rfl⟩
  | [_], [_], _, _, _ => ⟨_, _, _, _, addPairs_of_length_lt (by simp) _, rfl⟩
  | a :: a' :: v, b :: b' :: w, h, even, odd => by
    have hlater : v.length = w.length := by simpa using h
    rw [addPairs_cons_cons]
    exact exists_addPairs_eq product hlater _ _

/-- Of two lists of one length, no pair lacks a component, and none is left out. -/
theorem dotByPairs_eq_splitSum {v w : List α} (h : v.length = w.length) (zero : β) :
    dotByPairs product zero v w = some (splitSum zero zero (v.zipWith product w)) := by
  obtain ⟨s, s', v', w', hpairs, hsum⟩ := exists_addPairs_eq product h zero zero
  rw [dotByPairs, hpairs, ← hsum]
  rfl

end Loop

/-! ## Sums over places -/

section Places

variable [Add β] {n : ℕ}

/-- Goes on with a sum, from the left, by the terms at the places of a kind. -/
def sumAt (kind : ℕ → Prop) [DecidablePred kind] (start : β) (term : Fin n → β) : β :=
  ((List.finRange n).filter fun i => kind i.val).foldl (fun sum i => sum + term i) start

/-- Where every other place is of a kind, the same is so behind the first two. -/
theorem sumAt_add_two {kind : ℕ → Prop} [DecidablePred kind] (hkind : ∀ i, kind (i + 2) ↔ kind i)
    (start : β) (term : Fin (n + 2) → β) :
    sumAt kind start term =
      sumAt kind (sumAt kind start fun i : Fin 2 => term (i.castLE (Nat.le_add_left 2 n)))
        fun i => term i.succ.succ := by
  have hplaces : List.finRange (n + 2) =
      (List.finRange 2).map (Fin.castLE (Nat.le_add_left 2 n)) ++
        (List.finRange n).map fun i => i.succ.succ := by
    rw [List.finRange_succ, List.finRange_succ, List.map_cons, List.map_map]
    rfl
  rw [sumAt, hplaces, List.filter_append, List.foldl_append, List.filter_map, List.filter_map,
    List.foldl_map, List.foldl_map]
  simp only [sumAt, Function.comp_def, Fin.val_succ, Fin.val_castLE, hkind]

/-- The two sums are those over the even and over the odd places. -/
theorem splitSum_ofFn (even odd : β) (term : Fin n → β) :
    splitSum even odd (List.ofFn term) = sumAt Even even term + sumAt Odd odd term := by
  have heven (i : ℕ) : Even (i + 2) ↔ Even i := by simp [Nat.even_add]
  have hodd (i : ℕ) : Odd (i + 2) ↔ Odd i := by simp [Nat.odd_add]
  induction n using Nat.twoStepInduction generalizing even odd with
  | zero => rfl
  | one => rfl
  | more n ih _ =>
    -- Of the first two places, the first one is even and the second one odd.
    rw [List.ofFn_succ, List.ofFn_succ, splitSum, ih, sumAt_add_two heven, sumAt_add_two hodd]
    rfl

end Places

theorem zipWith_eq_ofFn {v w : List α} (h : v.length = w.length) :
    v.zipWith product w = List.ofFn fun i => product (v.get i) (w.get (i.cast h)) :=
  List.ext_getElem (by simp [h]) (by simp)

/-- Where addition is exact, it makes no difference which sum a term goes to. -/
theorem splitSum_eq_add_sum [AddCommMonoid β] (even odd : β) (terms : List β) :
    splitSum even odd terms = even + odd + terms.sum := by
  induction even, odd, terms using splitSum.induct with
  | case1 even odd a b later ih =>
    rw [splitSum, ih, List.sum_cons, List.sum_cons]
    abel
  | case2 even odd a =>
    rw [splitSum, List.sum_singleton]
    abel
  | case3 even odd => rw [splitSum, List.sum_nil, add_zero]

/-! ## Scalar products -/

/-- For two lists of components of one length, the steps by pairs give the scalar product. It is the
    sum, from the left and from zero, of the products at even places and that of the products at odd
    places, added. In any arithmetic with an exact addition, such as that of the real numbers, the
    same steps give the sum of the products at all places. -/
theorem dotByPairs_eq_sumAt {v w : List Float32} (h : v.length = w.length) :
    dotByPairs (fun a b => widen a * widen b) 0 v w = some (dot v w) ∧
      dot v w =
        sumAt Even 0 (fun i => widen (v.get i) * widen (w.get (i.cast h))) +
          sumAt Odd 0 (fun i => widen (v.get i) * widen (w.get (i.cast h))) ∧
      ∀ {R : Type} [AddCommMonoid R] (product : Float32 → Float32 → R),
        dotByPairs product 0 v w = some (∑ i, product (v.get i) (w.get (i.cast h))) := by
  refine ⟨dotByPairs_eq_splitSum h 0, ?_, fun product => ?_⟩
  · rw [dot, products, zipWith_eq_ofFn h, splitSum_ofFn]
  · rw [dotByPairs_eq_splitSum h, splitSum_eq_add_sum, zipWith_eq_ofFn h, List.sum_ofFn, add_zero,
      zero_add]

/-- Two large numbers cancel in the sum at even places, which leaves the small ones; added from the
    left in one sum, the one between them is lost. -/
theorem dotByPairs_eq_sumAt_cancelling :
    [(1e30 : Float32), 1, -1e30, 2, 3].length = [(1 : Float32), 1, 1, 1, 1].length ∧
      dotByPairs (fun a b => widen a * widen b) 0 [1e30, 1, -1e30, 2, 3] [1, 1, 1, 1, 1] = some 6 ∧
      (products [1e30, 1, -1e30, 2, 3] [1, 1, 1, 1, 1]).foldl (· + ·) 0 = 5 ∧
      dotByPairs (fun a b => component a * component b) 0 [1e30, 1, -1e30, 2, 3] [1, 1, 1, 1, 1] =
        some (component 1e30 * component 1 + component 1 * component 1 +
          component (-1e30) * component 1 + component 2 * component 1 +
          component 3 * component 1) := by
  have hlength :
      [(1e30 : Float32), 1, -1e30, 2, 3].length = [(1 : Float32), 1, 1, 1, 1].length := by
    simp
  obtain ⟨hpairs, -, hexact⟩ := dotByPairs_eq_sumAt hlength
  refine ⟨hlength, ?_, by decide +kernel, ?_⟩
  · rw [hpairs]
    decide +kernel
  · exact (hexact _).trans (congrArg some (Fin.sum_univ_five _))

end Embedding

end SchemaMatch

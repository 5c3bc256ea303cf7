import Mathlib.Data.List.Pairwise
import SchemaMatch.Proofs.Recommendations.Grouping
import SchemaMatch.Proofs.Selection.Ranking

/-!
# Choosing API methods

In a row of numbers, which API methods are selected can be told without their columns. Each API
method is taken with its score; those that reach the threshold are sorted, and as many as are
considered are taken (`Policy.chosen`).

* `selectRow_eq_take_filter`: it makes no difference whether the threshold is applied before or
  after the best columns are taken;
* `hits_selectRow`: the hits of a field are the API methods chosen by its row;
* `Policy.chosen_perm`: without ties, the order of the API methods makes no difference.
-/

namespace SchemaMatch

open Recommendations

/-- Where what goes before a kept item is kept as well, cutting a list and removing all others can
    be done in either order. -/
theorem filter_take_of_pairwise {α : Type} {items : List α} {keep : α → Bool}
    (hitems : items.Pairwise fun a b => keep b → keep a) (k : Nat) :
    (items.take k).filter keep = (items.filter keep).take k := by
  induction items generalizing k with
  | nil => simp
  | cons first later ih =>
    rw [List.pairwise_cons] at hitems
    cases k with
    | zero => simp
    | succ k =>
      by_cases hkeep : keep first
      · rw [List.take_succ_cons, List.filter_cons_of_pos hkeep, List.filter_cons_of_pos hkeep,
          List.take_succ_cons, ih hitems.2]
      · -- Nothing later is kept either.
        have hlater : ∀ b ∈ later, ¬keep b := fun b hb hkb => hkeep (hitems.1 b hb hkb)
        rw [List.take_succ_cons, List.filter_cons_of_neg hkeep, List.filter_cons_of_neg hkeep,
          List.filter_eq_nil_iff.2 hlater,
          List.filter_eq_nil_iff.2 fun b hb => hlater b (List.mem_of_mem_take hb), List.take_nil]

variable {p : Policy} {apis : List Method} {row : List Float}

/-! ## Scored API methods -/

/-- Whether the first of two scored API methods ranks at least as high as the second. -/
def outranks (d e : Method × Float) : Bool := ranksAtLeast d.2 e.2

theorem outranks_trans (c d e : Method × Float) (hcd : outranks c d) (hde : outranks d e) :
    outranks c e :=
  ranksAtLeast_trans c.2 d.2 e.2 hcd hde

theorem outranks_total (d e : Method × Float) : outranks d e || outranks e d :=
  ranksAtLeast_total d.2 e.2

/-- The API methods that are chosen by their scores: of those that reach the threshold as many as
    are considered, the best one first. -/
def Policy.chosen (p : Policy) (scored : List (Method × Float)) : List (Method × Float) :=
  ((scored.filter fun e => decide (p.threshold ≤ e.2)).mergeSort outranks).take p.breadth

/-- In a row of numbers, the threshold may be applied before the best columns are taken. -/
theorem selectRow_eq_take_filter (p : Policy) (hrow : AllNumbers row) :
    p.selectRow row =
      ((ranked row).filter fun c => decide (p.threshold ≤ c.score)).take p.breadth := by
  rw [selectRow_eq_filter_take p hrow]
  refine filter_take_of_pairwise ((pairwise_ranked row).imp_of_mem fun {c d} hc _ hcd hd => ?_) _
  have hc : c.score.isNaN = false := isNaN_score hrow ((perm_ranked row).mem_iff.1 hc)
  rw [Candidate.precedes, Bool.and_eq_true, ranksAtLeast_iff] at hcd
  have hdc := (hcd.1.resolve_left (by rw [hc]; exact Bool.false_ne_true)).2
  exact decide_eq_true (Double.le_trans (of_decide_eq_true hd) hdc)

/-- In a row of numbers, the hits are the API methods that are chosen by their scores. -/
theorem hits_selectRow (p : Policy) (hlength : row.length = apis.length) (hrow : AllNumbers row)
    (field : String) :
    hits apis field (p.selectRow row) =
      (p.chosen (apis.zip row)).map fun e => (e.1.name, ⟨field, e.2⟩) := by
  -- The candidates are sorted together with their API methods.
  obtain ⟨paired, hpaired⟩ : ∃ paired, paired = ((candidates row).zip apis).mergeSort
      fun d e => d.1.ranksWith e.1 := ⟨_, rfl⟩
  have hcount : (candidates row).length = apis.length := by
    rw [candidates, List.length_mapIdx, hlength]
  have hranked : ranked row = paired.map (·.1) := by
    rw [hpaired, List.map_mergeSort (s := Candidate.ranksWith) fun _ _ _ _ => rfl,
      List.map_fst_zip hcount.le]
    rfl
  have hscored : (apis.zip row).mergeSort outranks = paired.map fun e => (e.2, e.1.score) := by
    rw [hpaired]
    refine Eq.symm ((List.map_mergeSort (s := outranks) fun _ _ _ _ => rfl).trans ?_)
    congr 1
    refine List.ext_getElem (by simp [candidates, Nat.min_comm]) fun i hi hi' => ?_
    simp [candidates]
  have hapi : ∀ e ∈ paired, apis[e.1.column]? = some e.2 := by
    intro e he
    rw [hpaired, List.mem_mergeSort] at he
    obtain ⟨i, hi⟩ := List.mem_iff_getElem?.1 he
    obtain ⟨hc, ha⟩ := List.getElem?_zip_eq_some.1 hi
    rw [column_of_getElem?_candidates hc, ha]
  rw [selectRow_eq_take_filter p hrow, hranked, Policy.chosen,
    ← filter_mergeSort outranks_trans outranks_total, hscored, List.filter_map, List.filter_map,
    ← List.map_take, ← List.map_take, List.map_map, hits, List.filterMap_map,
    ← List.filterMap_eq_map]
  refine List.filterMap_congr fun e he => ?_
  simp [hapi e (List.mem_of_mem_filter (List.mem_of_mem_take he))]

/-- Two scores that are numbers and rank alike are equal. -/
theorem beq_of_ranksAtLeast {x y : Float} (hx : x.isNaN = false) (hy : y.isNaN = false)
    (hxy : ranksAtLeast x y) (hyx : ranksAtLeast y x) : (x == y) = true := by
  rw [ranksAtLeast_iff, hx, Double.le_iff_level] at hxy
  rw [ranksAtLeast_iff, hy, Double.le_iff_level] at hyx
  simp only [Bool.false_eq_true, false_or] at hxy hyx
  exact Double.beq_iff_level.2 ⟨hx, hy, le_antisymm hyx.2.2.2 hxy.2.2.2⟩

/-- Without ties, the order of the API methods makes no difference to which are chosen. -/
theorem Policy.chosen_perm {scored scored' : List (Method × Float)} (hperm : scored.Perm scored')
    (hnumbers : ∀ e ∈ scored, e.2.isNaN = false)
    (hties : scored.Pairwise fun d e => (d.2 == e.2) = false) :
    p.chosen scored = p.chosen scored' := by
  have hsymm : Std.Symm fun d e : Method × Float => (d.2 == e.2) = false :=
    ⟨fun _ _ h => Std.Symm.symm (r := fun x y : Float => (x == y) = false) _ _ h⟩
  -- Two API methods that rank alike have equal scores, and so they are one.
  have hantisymm : ∀ d e, d ∈ scored → e ∈ scored → outranks d e → outranks e d → d = e := by
    intro d e hd he hde hed
    by_contra hne
    have hbeq := beq_of_ranksAtLeast (hnumbers d hd) (hnumbers e he) hde hed
    rw [hties.forall hd he hne] at hbeq
    exact Bool.false_ne_true hbeq
  have hreach := hperm.filter fun e => decide (p.threshold ≤ e.2)
  rw [chosen, chosen]
  congr 1
  refine List.Perm.eq_of_pairwise (fun d e hd he => hantisymm d e ?_ ?_)
    (List.pairwise_mergeSort outranks_trans outranks_total _)
    (List.pairwise_mergeSort outranks_trans outranks_total _)
    (((List.mergeSort_perm _ _).trans hreach).trans (List.mergeSort_perm _ _).symm)
  · exact List.mem_of_mem_filter (List.mem_mergeSort.1 hd)
  · exact hperm.mem_iff.2 (List.mem_of_mem_filter (List.mem_mergeSort.1 he))

end SchemaMatch

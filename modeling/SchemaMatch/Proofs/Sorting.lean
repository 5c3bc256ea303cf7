import Mathlib.Data.List.Nodup

/-!
# Stable sorting

What is sorted keeps its order among equals: items that are as large as each other stay in the order
of their positions (`pairwise_mergeSort_position`). So it makes no difference whether items are
removed before or after sorting (`filter_mergeSort`).
-/

namespace SchemaMatch

variable {α : Type} {le : α → α → Bool}

/-- Of two sorted items, the first is not larger, and it has the smaller position if it is not
    smaller either. -/
theorem pairwise_mergeSort_position (htrans : ∀ a b c, le a b → le b c → le a c)
    (htotal : ∀ a b, le a b || le b a) {position : α → Nat} {items : List α}
    (hposition : ∀ i a, items[i]? = some a → position a = i) :
    (items.mergeSort le).Pairwise fun a b => le a b ∧ (le b a → position a < position b) := by
  -- The items are sorted together with their positions, and ties are broken by these.
  obtain ⟨placed, hplaced⟩ : ∃ placed,
    placed = items.zipIdx.mergeSort (List.zipIdxLE le) := ⟨_, rfl⟩
  have hperm : placed.Perm items.zipIdx := hplaced ▸ List.mergeSort_perm _ _
  have hsorted : placed.Pairwise fun p q => List.zipIdxLE le p q := by
    rw [hplaced]
    exact List.pairwise_mergeSort (List.zipIdxLE_trans htrans) (List.zipIdxLE_total htotal) _
  have hdistinct : placed.Pairwise fun p q => p.2 ≠ q.2 := by
    rw [hperm.pairwise_iff fun h => h.symm, ← List.pairwise_map (f := Prod.snd),
      List.zipIdx_map_snd]
    exact List.nodup_range'
  have hplace : ∀ p ∈ placed, position p.1 = p.2 := fun p hp =>
    hposition p.2 p.1 (List.mk_mem_zipIdx_iff_getElem?.1 (hperm.mem_iff.1 hp))
  rw [← List.mergeSort_zipIdx, ← hplaced, List.pairwise_map]
  refine (hsorted.and hdistinct).imp_of_mem fun {p q} hp hq h => ?_
  rw [hplace p hp, hplace q hq]
  obtain ⟨hle, hne⟩ := h
  rw [List.zipIdxLE] at hle
  split at hle
  · next hpq =>
    refine ⟨hpq, fun hqp => ?_⟩
    rw [if_pos hqp] at hle
    exact Nat.lt_of_le_of_ne (of_decide_eq_true hle) hne
  · exact absurd hle (by simp)

/-- A list splits in only one way into items with a property and items without it. -/
theorem append_inj_of_forall {p : α → Bool} {earlier later earlier' later' : List α}
    (hearlier : ∀ a ∈ earlier, p a) (hlater : ∀ a ∈ later, ¬p a)
    (hearlier' : ∀ a ∈ earlier', p a) (hlater' : ∀ a ∈ later', ¬p a)
    (h : earlier ++ later = earlier' ++ later') : earlier = earlier' ∧ later = later' := by
  have hfilter := congrArg (List.filter p) h
  rw [List.filter_append, List.filter_append, List.filter_eq_self.2 hearlier,
    List.filter_eq_self.2 hearlier', List.filter_eq_nil_iff.2 hlater,
    List.filter_eq_nil_iff.2 hlater', List.append_nil, List.append_nil] at hfilter
  subst hfilter
  exact ⟨rfl, List.append_cancel_left h⟩

/-- Sorting and removing items can be done in either order. -/
theorem filter_mergeSort (htrans : ∀ a b c, le a b → le b c → le a c)
    (htotal : ∀ a b, le a b || le b a) (keep : α → Bool) (items : List α) :
    (items.mergeSort le).filter keep = (items.filter keep).mergeSort le := by
  induction items with
  | nil => simp
  | cons a later ih =>
    obtain ⟨before, after, hcons, hlater, hbefore⟩ := List.mergeSort_cons htrans htotal a later
    rw [hlater, List.filter_append] at ih
    by_cases hkeep : keep a
    · obtain ⟨before', after', hcons', hlater', hbefore'⟩ :=
        List.mergeSort_cons htrans htotal a (later.filter keep)
      -- The new item goes behind exactly the items that it does not come before.
      have hafter : ∀ b ∈ after, le a b := by
        have hsorted := List.pairwise_mergeSort htrans htotal (a :: later)
        rw [hcons, List.pairwise_append, List.pairwise_cons] at hsorted
        exact hsorted.2.1.1
      have hafter' : ∀ b ∈ after', le a b := by
        have hsorted := List.pairwise_mergeSort htrans htotal (a :: later.filter keep)
        rw [hcons', List.pairwise_append, List.pairwise_cons] at hsorted
        exact hsorted.2.1.1
      obtain ⟨hb, ha⟩ := append_inj_of_forall (p := fun b => !le a b)
        (fun b hb => hbefore b (List.mem_of_mem_filter hb))
        (fun b hb => by simpa using hafter b (List.mem_of_mem_filter hb))
        hbefore' (fun b hb => by simpa using hafter' b hb) (ih.trans hlater')
      rw [List.filter_cons_of_pos hkeep, hcons, hcons', List.filter_append,
        List.filter_cons_of_pos hkeep, hb, ha]
    · rw [List.filter_cons_of_neg hkeep, hcons, List.filter_append, List.filter_cons_of_neg hkeep,
        ih]

end SchemaMatch

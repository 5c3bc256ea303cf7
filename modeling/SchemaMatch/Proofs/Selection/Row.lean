import SchemaMatch.Proofs.Selection.Ranking

/-!
# What is selected in a row

The columns of a row come in one order only: what is not a number first, then the numbers from the
greatest one down, where the zeros are one number, and of columns that are equal in this the left
one (`Candidate.comesBefore`). A policy with a number of candidates takes the first columns in that
order, and drops those that do not reach the threshold afterwards, so that what is not a number
takes up places and is never selected: `selectRow_topK`.

Without a number of candidates the best column is searched from left to right. In a row of numbers
this is the first column in the order, whatever ties there are: `selectRow_best`.
-/

namespace SchemaMatch

variable {row : List Float} {c d : Candidate}

/-! ## The order of the columns -/

/-- Whether a column comes before another one: what is not a number comes before all numbers, among
    numbers the greater one, and of what is equal in this the left one. -/
def Candidate.comesBefore (c d : Candidate) : Bool :=
  if c.score.isNaN then !d.score.isNaN || decide (c.column < d.column) else c.beats d

/-- Nothing beats what is not a number. -/
theorem beats_eq_false_of_isNaN (hd : d.score.isNaN = true) : c.beats d = false := by
  rw [Candidate.beats, Bool.or_eq_false_iff, Bool.and_eq_false_iff]
  refine ⟨decide_eq_false fun hlt => ?_, .inl (Bool.eq_false_iff.2 fun hbeq => ?_)⟩
  · rw [(Double.lt_iff_level.1 hlt).1] at hd
    exact Bool.false_ne_true hd
  · rw [(Double.beq_iff_level.1 hbeq).2.1] at hd
    exact Bool.false_ne_true hd

/-- The order of the ranking is that of the columns. -/
theorem precedes_eq_comesBefore (c d : Candidate) : c.precedes d = c.comesBefore d := by
  rw [Candidate.comesBefore]
  cases hc : c.score.isNaN with
  | true =>
    -- Nothing ranks above what is not a number, and only the like ranks as high.
    simp only [Candidate.precedes, ranksAtLeast, hc, Bool.true_or, Bool.true_and, Bool.not_true,
      Bool.false_and, Bool.or_false, if_true]
  | false =>
    rw [if_neg Bool.false_ne_true]
    cases hd : d.score.isNaN with
    | true =>
      simp only [Candidate.precedes, ranksAtLeast, hc, hd, beats_eq_false_of_isNaN hd,
        Bool.false_or, Bool.not_true, Bool.false_and]
    | false => exact precedes_eq_beats hc hd

theorem pairwise_comesBefore_ranked (row : List Float) :
    (ranked row).Pairwise fun c d => c.comesBefore d := by
  simpa only [precedes_eq_comesBefore] using pairwise_ranked row

/-- Only the ranking has the columns of a row in their order. -/
theorem perm_and_pairwise_iff_eq_ranked (row : List Float) (order : List Candidate) :
    (order.Perm (candidates row) ∧ order.Pairwise fun c d => c.comesBefore d) ↔
      order = ranked row := by
  constructor
  · rintro ⟨hperm, horder⟩
    -- Of two columns only one comes before the other, so that there is one way to order them.
    refine List.Perm.eq_of_pairwise (fun c d _ _ hcd hdc => ?_) horder
      (pairwise_comesBefore_ranked row) (hperm.trans (perm_ranked row).symm)
    rw [← precedes_eq_comesBefore] at hcd hdc
    exact absurd hdc (not_precedes_of_precedes hcd)
  · rintro rfl
    exact ⟨perm_ranked row, pairwise_comesBefore_ranked row⟩

/-- The first columns in the order are those that few others come before. -/
theorem mem_take_ranked_iff_comesBefore (k : Nat) :
    c ∈ (ranked row).take k ↔
      row[c.column]? = some c.score ∧ (candidates row).countP (·.comesBefore c) < k := by
  simp only [← mem_candidates, ← precedes_eq_comesBefore]
  constructor
  · intro htake
    have hc : c ∈ candidates row := (perm_ranked row).mem_iff.1 (List.mem_of_mem_take htake)
    exact ⟨hc, (mem_take_ranked_iff hc k).1 htake⟩
  · rintro ⟨hc, hfew⟩
    exact (mem_take_ranked_iff hc k).2 hfew

/-! ## A number of candidates -/

theorem length_ranked (row : List Float) : (ranked row).length = row.length := by
  rw [(perm_ranked row).length_eq, candidates, List.length_mapIdx]

/-- No column is there twice. -/
theorem nodup_column_ranked (row : List Float) : ((ranked row).map (·.column)).Nodup := by
  rw [((perm_ranked row).map _).nodup_iff, List.Nodup, List.pairwise_map]
  exact (pairwise_candidates row).imp Nat.ne_of_lt

/-- With a number of candidates, a row selects that many columns from the front of their order, as
    far as there are that many, without those that do not reach the threshold. That is, a column is
    selected if its score reaches the threshold and fewer columns come before it, and it is selected
    once and with its own score. -/
theorem selectRow_topK (threshold : Float) (k : TopK) (row : List Float) :
    let selected := Policy.selectRow ⟨threshold, some k⟩ row
    (∃ order : List Candidate,
      (∀ other : List Candidate,
        (other.Perm (candidates row) ∧ other.Pairwise fun c d => c.comesBefore d) ↔
          other = order) ∧
      selected =
        (order.take (min k.val.toNat row.length)).filter fun c => decide (threshold ≤ c.score)) ∧
    (∀ c, c ∈ selected ↔ row[c.column]? = some c.score ∧ threshold ≤ c.score ∧
      (candidates row).countP (·.comesBefore c) < k.val.toNat) ∧
    (selected.map (·.column)).Nodup := by
  intro selected
  have hselected : selected =
      ((ranked row).take k.val.toNat).filter fun c => decide (threshold ≤ c.score) := rfl
  refine ⟨⟨ranked row, perm_and_pairwise_iff_eq_ranked row, ?_⟩, fun c => ?_, ?_⟩
  · rw [hselected, ← length_ranked row, ← List.take_eq_take_min]
  · rw [hselected, List.mem_filter, decide_eq_true_eq, mem_take_ranked_iff_comesBefore,
      and_right_comm, and_assoc]
  · have hsublist : selected.Sublist (ranked row) :=
      List.filter_sublist.trans (List.take_sublist _ _)
    exact (nodup_column_ranked row).sublist (hsublist.map _)

/-! ## The best column -/

/-- In a row of numbers, the search for the best column selects what one candidate selects. -/
theorem selectRow_best (threshold : Float) (hrow : AllNumbers row) :
    Policy.selectRow ⟨threshold, none⟩ row =
      Policy.selectRow ⟨threshold, some ⟨1, by decide⟩⟩ row := by
  rw [selectRow_eq_filter_take _ hrow, selectRow_eq_filter_take _ hrow]
  rfl

/-- The zeros tie for the best score, above negative numbers and negative infinity. -/
theorem selectRow_best_zeros :
    let row : List Float := [-1, -0.0, 0, -1 / 0, -0.0]
    AllNumbers row ∧ (Policy.selectRow ⟨0, none⟩ row).map (·.column) = [1] ∧
      Policy.selectRow ⟨0, none⟩ row =
        Policy.selectRow ⟨0, some ⟨1, by decide⟩⟩ row := by
  intro row
  have hrow : AllNumbers row := by
    change ∀ x ∈ row, x.isNaN = false
    decide +kernel
  exact ⟨hrow, by decide +kernel, selectRow_best 0 hrow⟩

end SchemaMatch

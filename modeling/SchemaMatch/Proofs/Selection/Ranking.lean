import Mathlib.Data.List.Induction
import SchemaMatch.Proofs.Precision.Order
import SchemaMatch.Proofs.Sorting
import SchemaMatch.Selection

/-!
# Ranking the columns of a row

A candidate *precedes* another one if it ranks higher, or alike and further left
(`Candidate.precedes`); among numbers, it then *beats* it: its score is greater, or equal and
further left (`Candidate.beats`).

* `pairwise_ranked`: each candidate of the ranking precedes all later ones;
* `mem_take_ranked_iff`: a candidate is among the `k` best ones exactly if fewer than `k` candidates
  precede it;
* `toList_best?`: in a row of numbers, the best column is the first one of the ranking;
* `pairwise_selectRow`: what is selected has descending scores, whatever is in the row.
-/

namespace SchemaMatch

variable {row : List Float} {c d : Candidate}

/-! ## The columns of a row -/

theorem mem_candidates : c ∈ candidates row ↔ row[c.column]? = some c.score := by
  constructor
  · intro h
    obtain ⟨i, hi, rfl⟩ := List.mem_mapIdx.1 h
    exact List.getElem?_eq_getElem hi
  · intro h
    obtain ⟨hi, hs⟩ := List.getElem?_eq_some_iff.1 h
    exact List.mem_mapIdx.2 ⟨c.column, hi, by rw [hs]⟩

theorem column_of_getElem?_candidates {i : Nat} (h : (candidates row)[i]? = some c) :
    c.column = i := by
  rw [candidates, List.getElem?_mapIdx, Option.map_eq_some_iff] at h
  obtain ⟨_, _, rfl⟩ := h
  rfl

/-- The columns are met from left to right. -/
theorem pairwise_candidates (row : List Float) :
    (candidates row).Pairwise fun c d => c.column < d.column := by
  rw [List.pairwise_iff_getElem]
  intro i j hi hj hij
  rwa [column_of_getElem?_candidates (List.getElem?_eq_getElem hi),
    column_of_getElem?_candidates (List.getElem?_eq_getElem hj)]

/-! ## The ranking -/

theorem ranksAtLeast_iff {x y : Float} :
    ranksAtLeast x y = true ↔ x.isNaN = true ∨ y.isNaN = false ∧ y ≤ x := by
  simp [ranksAtLeast]

theorem ranksAtLeast_trans (x y z : Float) (hxy : ranksAtLeast x y) (hyz : ranksAtLeast y z) :
    ranksAtLeast x z := by
  rw [ranksAtLeast_iff] at *
  rcases hxy with hx | ⟨hy, hxy⟩
  · exact .inl hx
  · rcases hyz with hy' | ⟨hz, hyz⟩
    · exact absurd (hy.symm.trans hy') Bool.false_ne_true
    · exact .inr ⟨hz, Double.le_trans hyz hxy⟩

theorem ranksAtLeast_total (x y : Float) : ranksAtLeast x y || ranksAtLeast y x := by
  rw [Bool.or_eq_true, ranksAtLeast_iff, ranksAtLeast_iff]
  by_cases hx : x.isNaN
  · exact .inl (.inl hx)
  by_cases hy : y.isNaN
  · exact .inr (.inl hy)
  simp only [Bool.not_eq_true] at hx hy
  by_cases h : y ≤ x
  · exact .inl (.inr ⟨hy, h⟩)
  · rw [Double.not_le_iff hy hx] at h
    exact .inr (.inr ⟨hx, Double.le_iff_lt_or_beq.2 (.inl h)⟩)

/-- Whether a candidate goes before another one in the ranking: it ranks higher, or alike and
    further left. -/
def Candidate.precedes (c d : Candidate) : Bool :=
  ranksAtLeast c.score d.score && (!ranksAtLeast d.score c.score || decide (c.column < d.column))

theorem not_precedes_of_precedes (h : c.precedes d) : ¬d.precedes c := by
  simp only [Candidate.precedes, Bool.and_eq_true, Bool.or_eq_true, Bool.not_eq_true',
    decide_eq_true_eq] at *
  rintro ⟨hdc, hcd | hlt⟩
  · simp [h.1] at hcd
  · rcases h.2 with hdc' | hlt'
    · simp [hdc] at hdc'
    · omega

/-- Whether a candidate ranks at least as high as another one. -/
def Candidate.ranksWith (c d : Candidate) : Bool := ranksAtLeast c.score d.score

theorem Candidate.ranksWith_trans (c d e : Candidate) (hcd : c.ranksWith d)
    (hde : d.ranksWith e) : c.ranksWith e :=
  ranksAtLeast_trans c.score d.score e.score hcd hde

theorem Candidate.ranksWith_total (c d : Candidate) : c.ranksWith d || d.ranksWith c :=
  ranksAtLeast_total c.score d.score

/-- The ranking sorts, and keeps candidates that rank alike in the order of their columns. -/
theorem pairwise_ranked (row : List Float) : (ranked row).Pairwise fun c d => c.precedes d := by
  refine (pairwise_mergeSort_position Candidate.ranksWith_trans Candidate.ranksWith_total
    fun _ _ => column_of_getElem?_candidates).imp fun h => ?_
  obtain ⟨hle, hcolumn⟩ := h
  rw [Candidate.precedes, Bool.and_eq_true, Bool.or_eq_true, decide_eq_true_eq]
  refine ⟨hle, or_iff_not_imp_left.2 fun htie => hcolumn ?_⟩
  simpa [Candidate.ranksWith] using htie

theorem perm_ranked (row : List Float) : (ranked row).Perm (candidates row) :=
  List.mergeSort_perm _ _

/-- In a list in which everything precedes what comes later, the first `k` items are those that
    fewer than `k` items precede. -/
theorem mem_take_iff_countP_lt {α : Type} {before : α → α → Bool} {items : List α}
    (hitems : items.Pairwise fun a b => before a b)
    (hasymm : ∀ a b, before a b → ¬before b a) {a : α} (ha : a ∈ items) (k : Nat) :
    a ∈ items.take k ↔ items.countP (before · a) < k := by
  induction items generalizing k with
  | nil => exact absurd ha List.not_mem_nil
  | cons first later ih =>
    rw [List.pairwise_cons] at hitems
    have hirrefl : ¬before a a := fun h => hasymm a a h h
    cases k with
    | zero => simp
    | succ k =>
      rcases List.mem_cons.1 ha with rfl | hlater
      · -- Nothing precedes the first item.
        have hnone : later.countP (before · a) = 0 :=
          List.countP_eq_zero.2 fun b hb => hasymm a b (hitems.1 b hb)
        simp [hirrefl, hnone]
      · -- The first item precedes a later one, which is another one.
        have hfirst : before first a := hitems.1 a hlater
        have hne : a ≠ first := by
          rintro rfl
          exact hirrefl hfirst
        rw [List.take_succ_cons, List.mem_cons, ih hitems.2 hlater k]
        simp [hne, hfirst]

/-- In such a list, the first item with a property is the one that goes before all others with it.
    -/
theorem find?_eq_some_iff_of_pairwise {α : Type} {before : α → α → Bool} {items : List α}
    {p : α → Bool} (hitems : items.Pairwise fun a b => before a b)
    (hasymm : ∀ a b, before a b → ¬before b a) {a : α} :
    items.find? p = some a ↔ a ∈ items ∧ p a ∧ ∀ b ∈ items, p b → b ≠ a → before a b := by
  induction items with
  | nil => simp
  | cons first later ih =>
    rw [List.pairwise_cons] at hitems
    by_cases hfirst : p first
    · rw [List.find?_cons_of_pos hfirst, Option.some_inj]
      constructor
      · rintro rfl
        refine ⟨by simp, hfirst, fun b hb _ hne => ?_⟩
        exact hitems.1 b ((List.mem_cons.1 hb).resolve_left hne)
      · -- The first item is another one only if the two go before each other.
        rintro ⟨ha, -, hbefore⟩
        by_contra hne
        have hlater : a ∈ later := (List.mem_cons.1 ha).resolve_left (Ne.symm hne)
        exact hasymm first a (hitems.1 a hlater) (hbefore first (by simp) hfirst hne)
    · rw [List.find?_cons_of_neg hfirst, ih hitems.2]
      constructor
      · rintro ⟨ha, hp, hbefore⟩
        refine ⟨List.mem_cons_of_mem _ ha, hp, fun b hb hpb hne => ?_⟩
        rcases List.mem_cons.1 hb with rfl | hb
        · exact absurd hpb hfirst
        · exact hbefore b hb hpb hne
      · rintro ⟨ha, hp, hbefore⟩
        refine ⟨?_, hp, fun b hb => hbefore b (List.mem_cons_of_mem _ hb)⟩
        rcases List.mem_cons.1 ha with rfl | ha
        · exact absurd hp hfirst
        · exact ha

/-- Where what goes before a kept item is kept as well, the first item with a property is the same
    after all others are removed, unless it is removed itself. -/
theorem find?_filter_of_pairwise {α : Type} {items : List α} {p keep : α → Bool}
    (hitems : items.Pairwise fun a b => keep b → keep a) :
    (items.filter keep).find? p = (items.find? p).filter keep := by
  induction items with
  | nil => rfl
  | cons first later ih =>
    rw [List.pairwise_cons] at hitems
    have ih := ih hitems.2
    by_cases hkeep : keep first
    · rw [List.filter_cons_of_pos hkeep]
      by_cases hp : p first
      · simp [hp, hkeep, Option.filter]
      · simpa [hp] using ih
    · -- Nothing later is kept either.
      have hlater : later.filter keep = [] :=
        List.filter_eq_nil_iff.2 fun b hb hkb => hkeep (hitems.1 b hb hkb)
      rw [List.filter_cons_of_neg hkeep, hlater]
      by_cases hp : p first
      · simp [hp, hkeep, Option.filter]
      · rw [hlater] at ih
        simpa [hp] using ih

/-- The best candidates are those that few others precede. -/
theorem mem_take_ranked_iff (hc : c ∈ candidates row) (k : Nat) :
    c ∈ (ranked row).take k ↔ (candidates row).countP (·.precedes c) < k := by
  rw [mem_take_iff_countP_lt (pairwise_ranked row) (fun _ _ => not_precedes_of_precedes)
    ((perm_ranked row).mem_iff.2 hc), (perm_ranked row).countP_eq]

/-! ## Rows of numbers -/

/-- Whether a candidate beats another one: its score is greater, or equal and it stands further
    left. -/
def Candidate.beats (c d : Candidate) : Bool :=
  decide (d.score < c.score) || (c.score == d.score && decide (c.column < d.column))

/-- Whether there is nothing but numbers in a row. -/
def AllNumbers (row : List Float) : Prop := ∀ x ∈ row, x.isNaN = false

theorem isNaN_score (hrow : AllNumbers row) (hc : c ∈ candidates row) : c.score.isNaN = false :=
  hrow _ (List.mem_of_getElem? (mem_candidates.1 hc))

/-- Among numbers, one candidate beats another if its score lies on a higher level, or on the same
    one and it stands further left. -/
theorem beats_iff_level (hc : c.score.isNaN = false) (hd : d.score.isNaN = false) :
    c.beats d ↔ Double.level d.score < Double.level c.score ∨
      Double.level c.score = Double.level d.score ∧ c.column < d.column := by
  rw [Candidate.beats, Bool.or_eq_true, Bool.and_eq_true, decide_eq_true_eq, decide_eq_true_eq,
    Double.lt_iff_level, Double.beq_iff_level]
  simp only [hc, hd, true_and]

/-- Among numbers, preceding is beating. -/
theorem precedes_eq_beats (hc : c.score.isNaN = false) (hd : d.score.isNaN = false) :
    c.precedes d = c.beats d := by
  rw [Bool.eq_iff_iff, beats_iff_level hc hd]
  simp only [Candidate.precedes, ranksAtLeast, hc, hd, Double.le_iff_level,
    Bool.false_or, Bool.not_false, Bool.true_and, Bool.and_eq_true, Bool.or_eq_true,
    Bool.not_eq_true', decide_eq_true_eq, decide_eq_false_iff_not, true_and, not_le]
  rcases lt_trichotomy (Double.level d.score) (Double.level c.score) with h | h | h
  · simp [h, h.le]
  · simp [h]
  · simp [h.not_gt, h.ne, h.not_ge]

theorem countP_precedes (hrow : AllNumbers row) (hc : c ∈ candidates row) :
    (candidates row).countP (·.precedes c) = (candidates row).countP (·.beats c) :=
  List.countP_congr fun d hd => by
    rw [precedes_eq_beats (isNaN_score hrow hd) (isNaN_score hrow hc)]

/-- A column that lies above another one beats whatever that one beats. -/
theorem beats_of_lt {e : Candidate} (hc : c.score.isNaN = false) (hd : d.score.isNaN = false)
    (he : e.score.isNaN = false) (h : d.score < c.score) (hde : d.beats e) : c.beats e := by
  rw [beats_iff_level hc he]
  have hlevel := (Double.lt_iff_level.1 h).2.2
  rcases (beats_iff_level hd he).1 hde with hlt | ⟨heq, _⟩
  · exact .inl (hlt.trans hlevel)
  · exact .inl (heq ▸ hlevel)

/-- A column beats those further right that lie no higher. -/
theorem beats_of_not_lt (hc : c.score.isNaN = false) (hd : d.score.isNaN = false)
    (h : ¬c.score < d.score) (hcolumn : c.column < d.column) : c.beats d := by
  rw [beats_iff_level hc hd]
  have hlevel := (Double.le_iff_level.1 ((Double.not_lt_iff hc hd).1 h)).2.2
  rcases lt_or_eq_of_le hlevel with hlt | heq
  · exact .inl hlt
  · exact .inr ⟨heq.symm, hcolumn⟩

/-- The search for the best column finds one that beats every other one. -/
theorem exists_foldl_better {columns : List Candidate} (hne : columns ≠ [])
    (hcolumns : columns.Pairwise fun c d => c.column < d.column)
    (hnumbers : ∀ c ∈ columns, c.score.isNaN = false) :
    ∃ best ∈ columns, columns.foldl better none = some best ∧
      ∀ d ∈ columns, d ≠ best → best.beats d := by
  induction columns using List.reverseRecOn with
  | nil => exact absurd rfl hne
  | append_singleton earlier c ih =>
    rw [List.pairwise_append] at hcolumns
    have hc : c.score.isNaN = false := hnumbers c (by simp)
    by_cases hearlier : earlier = []
    · subst hearlier
      exact ⟨c, by simp, rfl, by simp⟩
    obtain ⟨best, hmem, hfold, hbeats⟩ := ih hearlier hcolumns.1
      fun d hd => hnumbers d (List.mem_append_left _ hd)
    have hbest : best.score.isNaN = false := hnumbers best (List.mem_append_left _ hmem)
    rw [List.foldl_append, hfold]
    by_cases h : best.score < c.score
    · -- The new column lies above the best one so far, and with it above all others.
      refine ⟨c, by simp, by simp [better, h], fun d hd hdc => ?_⟩
      have hd : d ∈ earlier := (List.mem_append.1 hd).resolve_right (by simpa using hdc)
      by_cases hdb : d = best
      · rw [hdb, beats_iff_level hc hbest]
        exact .inl (Double.lt_iff_level.1 h).2.2
      · exact beats_of_lt hc hbest (hnumbers d (List.mem_append_left _ hd)) h (hbeats d hd hdb)
    · -- The best one so far stays: the new column lies no higher, and further right.
      refine ⟨best, List.mem_append_left _ hmem, by simp [better, h], fun d hd hdb => ?_⟩
      rcases List.mem_append.1 hd with hd | hd
      · exact hbeats d hd hdb
      · rw [List.mem_singleton.1 hd]
        exact beats_of_not_lt hbest hc h (hcolumns.2.2 best hmem c (by simp))

/-- What the search for the best column finds is one of the columns. -/
theorem mem_of_foldl_better {columns : List Candidate} {best : Option Candidate}
    (h : columns.foldl better best = some c) : best = some c ∨ c ∈ columns := by
  induction columns generalizing best with
  | nil => exact .inl h
  | cons d later ih =>
    have hbetter : better best d = some c → best = some c ∨ c = d := by
      cases best with
      | none => exact fun e => .inr (Option.some.inj e).symm
      | some held =>
        rw [better]
        split
        · exact fun e => .inr (Option.some.inj e).symm
        · exact .inl
    rcases ih h with hbest | hlater
    · rcases hbetter hbest with hbest | rfl
      · exact .inl hbest
      · exact .inr List.mem_cons_self
    · exact .inr (List.mem_cons_of_mem _ hlater)

/-- In a row of numbers, the best column is the first one of the ranking. -/
theorem toList_best? (hrow : AllNumbers row) : (best? row).toList = (ranked row).take 1 := by
  cases hranked : ranked row with
  | nil =>
    have hempty : candidates row = [] := by
      simpa [hranked] using (perm_ranked row).symm
    simp [best?, hempty]
  | cons first later =>
    have hmem : ∀ c, c ∈ first :: later ↔ c ∈ candidates row := fun c => by
      rw [← hranked, (perm_ranked row).mem_iff]
    have hfirst : first ∈ candidates row := (hmem first).1 (by simp)
    obtain ⟨best, hbest, hfold, hbeats⟩ := exists_foldl_better (List.ne_nil_of_mem hfirst)
      (pairwise_candidates row) fun c hc => isNaN_score hrow hc
    have hsorted := pairwise_ranked row
    rw [hranked, List.pairwise_cons] at hsorted
    -- Were they two columns, each would precede the other.
    have heq : best = first := by
      by_contra hne
      have hlater : best ∈ later := (List.mem_cons.1 ((hmem best).2 hbest)).resolve_left hne
      refine not_precedes_of_precedes (hsorted.1 best hlater) ?_
      rw [precedes_eq_beats (isNaN_score hrow hbest) (isNaN_score hrow hfirst)]
      exact hbeats first hfirst (Ne.symm hne)
    rw [best?, hfold, heq]
    rfl

/-! ## What is selected -/

/-- The number of columns that a policy considers in a row. -/
def Policy.breadth (p : Policy) : Nat :=
  match p.topK with
  | none => 1
  | some k => k.val.toNat

/-- In a row of numbers, the columns considered are the first ones of the ranking, with or without a
    number of candidates. -/
theorem selectRow_eq_filter_take (p : Policy) (hrow : AllNumbers row) :
    p.selectRow row =
      ((ranked row).take p.breadth).filter fun c => decide (p.threshold ≤ c.score) := by
  rw [Policy.selectRow, Policy.breadth]
  cases p.topK with
  | none => simp only [toList_best? hrow]
  | some k => rfl

/-- In a row of numbers, a column is selected exactly if it reaches the threshold and is beaten by
    fewer columns than are considered. -/
theorem mem_selectRow_iff (p : Policy) (hrow : AllNumbers row) :
    c ∈ p.selectRow row ↔ c ∈ candidates row ∧ p.threshold ≤ c.score ∧
      (candidates row).countP (·.beats c) < p.breadth := by
  rw [selectRow_eq_filter_take p hrow, List.mem_filter, decide_eq_true_eq]
  constructor
  · rintro ⟨htake, hreach⟩
    have hc : c ∈ candidates row := (perm_ranked row).mem_iff.1 (List.mem_of_mem_take htake)
    rw [mem_take_ranked_iff hc, countP_precedes hrow hc] at htake
    exact ⟨hc, hreach, htake⟩
  · rintro ⟨hc, hreach, hfew⟩
    rw [mem_take_ranked_iff hc, countP_precedes hrow hc]
    exact ⟨hfew, hreach⟩

/-- A higher threshold selects the same candidates without those below it. -/
theorem selectRow_of_threshold_le {p q : Policy} (htopK : q.topK = p.topK)
    (hle : p.threshold ≤ q.threshold) (row : List Float) :
    q.selectRow row = (p.selectRow row).filter fun c => !decide (c.score < q.threshold) := by
  rw [Policy.selectRow, Policy.selectRow, List.filter_filter, htopK]
  refine List.filter_congr fun c _ => ?_
  rw [Bool.eq_iff_iff, Bool.and_eq_true, decide_eq_true_eq, decide_eq_true_eq, Bool.not_eq_true',
    decide_eq_false_iff_not]
  constructor
  · intro hreach
    exact ⟨Double.not_lt_of_le hreach, Double.le_trans hle hreach⟩
  · rintro ⟨hlt, hreach⟩
    exact (Double.not_lt_iff (Double.isNaN_right_of_le hreach) (Double.isNaN_right_of_le hle)).1 hlt

/-- In a row of numbers, what is selected is ranked. -/
theorem pairwise_precedes_selectRow (p : Policy) (hrow : AllNumbers row) :
    (p.selectRow row).Pairwise fun c d => c.precedes d := by
  rw [selectRow_eq_filter_take p hrow]
  exact ((pairwise_ranked row).take).filter _

/-- What is selected in a row is a column of it, whatever is in the row. -/
theorem column_lt_of_mem_selectRow {p : Policy} (h : c ∈ p.selectRow row) :
    c.column < row.length := by
  rw [Policy.selectRow, List.mem_filter] at h
  have hmem : c ∈ candidates row := by
    cases htopK : p.topK with
    | none =>
      have hbest : best? row = some c := by simpa [htopK] using h.1
      exact (mem_of_foldl_better hbest).resolve_left (by simp)
    | some k =>
      rw [htopK] at h
      exact (perm_ranked row).mem_iff.1 (List.mem_of_mem_take h.1)
  exact (List.getElem?_eq_some_iff.1 (mem_candidates.1 hmem)).1

/-- What is selected has descending scores, whatever is in the row: what is not a number reaches no
    threshold. -/
theorem pairwise_selectRow (p : Policy) (row : List Float) :
    (p.selectRow row).Pairwise fun c d => d.score ≤ c.score := by
  rw [Policy.selectRow]
  cases p.topK with
  | none =>
    cases best? row with
    | none => exact .nil
    | some best => exact (List.pairwise_singleton _ best).filter _
  | some k =>
    refine List.Pairwise.imp_of_mem (fun {c d} hc _ hcd => ?_)
      (((pairwise_ranked row).take).filter _)
    have hnumber : c.score.isNaN = false :=
      Double.isNaN_right_of_le (of_decide_eq_true (List.mem_filter.1 hc).2)
    rw [Candidate.precedes, Bool.and_eq_true, ranksAtLeast_iff] at hcd
    exact (hcd.1.resolve_left (by rw [hnumber]; exact Bool.false_ne_true)).2

/-- A row selects first what it selects when fewer columns are considered. What is not a number is
    ranked, but never found to be the best column, so that numbers of candidates are needed unless
    the row is one of numbers. -/
theorem selectRow_of_breadth_le {p q : Policy} (hthreshold : q.threshold = p.threshold)
    (hle : p.breadth ≤ q.breadth)
    (hrow : p.topK.isSome ∧ q.topK.isSome ∨ AllNumbers row) :
    p.selectRow row <+: q.selectRow row := by
  have htake : ∀ o : Policy, o.topK.isSome ∨ AllNumbers row → o.selectRow row =
      ((ranked row).take o.breadth).filter fun c => decide (o.threshold ≤ c.score) := by
    rintro o (hsome | hrow)
    · obtain ⟨k, hk⟩ := Option.isSome_iff_exists.1 hsome
      rw [Policy.selectRow, Policy.breadth, hk]
    · exact selectRow_eq_filter_take o hrow
  rw [htake p (hrow.imp_left And.left), htake q (hrow.imp_left And.right), hthreshold]
  exact (List.take_prefix_take_left hle).filter _

end SchemaMatch

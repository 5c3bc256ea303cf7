import Mathlib.Data.List.Forall2
import SchemaMatch.Proofs.Recommendations.Grouping

/-!
# The groups of selections

Selections need not descend: under a name, a field may have candidates in any order. Of their scores
the first greatest one is kept (`FirstGreatest`), which is what taking up the scores one after the
other comes to, since only a greater score takes the place of another
(`FirstGreatest.append_singleton`).

So selections amount to a grouping that can be told without carrying it out. The names are those of
the candidates, in the order in which these first come; and under a name is each field that has a
candidate of the name, once and in the order of the fields, with the first greatest score of its
candidates of the name: `Recommendations.ofSelections_groups`.
-/

namespace SchemaMatch.Recommendations

variable {scores : List Float} {x y : Float}

/-- Whether a score is the greatest of some scores, and the first one of those that are as great. -/
def FirstGreatest (scores : List Float) (x : Float) : Prop :=
  ∃ earlier later, scores = earlier ++ x :: later ∧ (∀ y ∈ earlier, y < x) ∧ ∀ y ∈ later, y ≤ x

theorem firstGreatest_singleton (x : Float) : FirstGreatest [x] x :=
  ⟨[], [], rfl, by simp, by simp⟩

theorem FirstGreatest.mem (h : FirstGreatest scores x) : x ∈ scores := by
  obtain ⟨earlier, later, rfl, -, -⟩ := h
  simp

/-- A further score is the first greatest one if it is greater than the one before, and else that
    one stays. -/
theorem FirstGreatest.append_singleton (h : FirstGreatest scores x) (hx : x.isNaN = false)
    (hy : y.isNaN = false) : FirstGreatest (scores ++ [y]) (if x < y then y else x) := by
  obtain ⟨earlier, later, rfl, hearlier, hlater⟩ := h
  split
  · next hlt =>
    refine ⟨earlier ++ x :: later, [], rfl, fun z hz => ?_, by simp⟩
    rcases List.mem_append.1 hz with hz | hz
    · exact Double.lt_of_le_of_lt (Double.le_iff_lt_or_beq.2 (.inl (hearlier z hz))) hlt
    · rcases List.mem_cons.1 hz with rfl | hz
      · exact hlt
      · exact Double.lt_of_le_of_lt (hlater z hz) hlt
  · next hlt =>
    refine ⟨earlier, later ++ [y], by simp, hearlier, fun z hz => ?_⟩
    rcases List.mem_append.1 hz with hz | hz
    · exact hlater z hz
    · rw [List.mem_singleton.1 hz]
      exact (Double.not_lt_iff hx hy).1 hlt

/-- Of one field, the first greatest score is kept. -/
theorem exists_bestOfEachField_eq_singleton (field : String) {scores : List Float}
    (hne : scores ≠ []) (hscores : ∀ x ∈ scores, x.isNaN = false) :
    ∃ x, bestOfEachField (scores.map (⟨field, ·⟩)) = [⟨field, x⟩] ∧ FirstGreatest scores x := by
  induction scores using List.reverseRecOn with
  | nil => exact absurd rfl hne
  | append_singleton earlier y ih =>
    rcases eq_or_ne earlier [] with rfl | hearlier
    · exact ⟨y, rfl, firstGreatest_singleton y⟩
    · have hbefore : ∀ x ∈ earlier, x.isNaN = false := fun x hx =>
        hscores x (List.mem_append_left _ hx)
      obtain ⟨x, hbest, hx⟩ := ih hearlier hbefore
      refine ⟨_, ?_, hx.append_singleton (hbefore x hx.mem) (hscores y (by simp))⟩
      rw [List.map_append, List.map_singleton, bestOfEachField_append_singleton, hbest, raise,
        if_pos rfl]
      split <;> rfl

/-! ## Groups -/

variable {apis : List Method} {name : String} {fields : List String}
  {selections : List (List Candidate)}

/-- The scores of the candidates of a name, in their order. -/
def scoresUnder (apis : List Method) (name : String) (selection : List Candidate) : List Float :=
  (selection.filter (bears apis name)).map (·.score)

/-- The fields that have a candidate of a name, with their selections. -/
def fieldsUnder (apis : List Method) (name : String) (selected : List (String × List Candidate)) :
    List (String × List Candidate) :=
  selected.filter fun entry => entry.2.any (bears apis name)

/-- What is kept of the hits of all fields under a name: of each field that has any, the first
    greatest score. -/
theorem forall₂_flatMap_bestOfEachField {selected : List (String × List Candidate)}
    (hscores : ∀ entry ∈ selected, ∀ c ∈ entry.2, c.score.isNaN = false) :
    List.Forall₂
      (fun entry r => r.field = entry.1 ∧ FirstGreatest (scoresUnder apis name entry.2) r.score)
      (fieldsUnder apis name selected)
      (selected.flatMap fun entry =>
        bestOfEachField (((hits apis entry.1 entry.2).filter (·.1 = name)).map (·.2))) := by
  induction selected with
  | nil => exact .nil
  | cons entry later ih =>
    have ih := ih fun e he => hscores e (List.mem_cons_of_mem _ he)
    have hhits : ((hits apis entry.1 entry.2).filter (·.1 = name)).map (·.2) =
        (scoresUnder apis name entry.2).map (⟨entry.1, ·⟩) := by
      rw [filter_hits, scoresUnder, List.map_map]
      rfl
    rw [List.flatMap_cons, hhits, fieldsUnder, List.filter_cons]
    by_cases hany : entry.2.any (bears apis name) = true
    · have hne : scoresUnder apis name entry.2 ≠ [] := by
        obtain ⟨c, hc, hbears⟩ := List.any_eq_true.1 hany
        exact List.ne_nil_of_mem (List.mem_map_of_mem (List.mem_filter.2 ⟨hc, hbears⟩))
      have hnumbers : ∀ x ∈ scoresUnder apis name entry.2, x.isNaN = false := by
        intro x hx
        obtain ⟨c, hc, rfl⟩ := List.mem_map.1 hx
        exact hscores entry (by simp) c (List.mem_of_mem_filter hc)
      obtain ⟨x, hbest, hx⟩ := exists_bestOfEachField_eq_singleton entry.1 hne hnumbers
      rw [if_pos hany, hbest]
      exact .cons ⟨rfl, hx⟩ ih
    · have hnil : scoresUnder apis name entry.2 = [] := by
        rw [scoresUnder, List.map_eq_nil_iff, List.filter_eq_nil_iff]
        exact fun c hc hbears => hany (List.any_eq_true.2 ⟨c, hc, hbears⟩)
      rw [if_neg hany, hnil]
      exact ih

/-- If every candidate is the column of an API method, none of them is lost. -/
theorem map_some_hits {field : String} {selection : List Candidate}
    (hcolumns : ∀ c ∈ selection, c.column < apis.length) :
    ((hits apis field selection).map (·.1)).map some =
      selection.map fun c => apis[c.column]?.map (·.name) := by
  induction selection with
  | nil => rfl
  | cons c later ih =>
    have ih := ih fun d hd => hcolumns d (List.mem_cons_of_mem _ hd)
    rw [hits] at ih ⊢
    rw [List.filterMap_cons, List.getElem?_eq_getElem (hcolumns c (by simp))]
    simpa [List.getElem?_eq_getElem (hcolumns c (by simp))] using ih

theorem map_some_flatMap_hits (hlength : selections.length = fields.length)
    (hcolumns : ∀ selection ∈ selections, ∀ c ∈ selection, c.column < apis.length) :
    (((fields.zip selections).flatMap fun entry => hits apis entry.1 entry.2).map (·.1)).map some =
      selections.flatten.map fun c => apis[c.column]?.map (·.name) := by
  calc (((fields.zip selections).flatMap fun entry => hits apis entry.1 entry.2).map (·.1)).map some
      = (fields.zip selections).flatMap fun entry =>
          ((hits apis entry.1 entry.2).map (·.1)).map some := by
        rw [List.map_flatMap, List.map_flatMap]
    _ = (fields.zip selections).flatMap fun entry =>
          entry.2.map fun c => apis[c.column]?.map (·.name) :=
        List.flatMap_congr fun entry hentry =>
          map_some_hits (hcolumns entry.2 (List.of_mem_zip hentry).2)
    _ = ((fields.zip selections).map (·.2)).flatMap
          (List.map fun c => apis[c.column]?.map (·.name)) := (List.flatMap_map _ _ _).symm
    _ = selections.flatten.map fun c => apis[c.column]?.map (·.name) := by
        rw [List.map_snd_zip (Nat.le_of_eq hlength), List.map_flatten, List.flatMap_def]

/-- Selections of distinct fields can be grouped by name, if each candidate has an API method. The
    names are those of all candidates, read field by field and in the order of the candidates,
    without repetitions; and under each name are the fields that have a candidate of it, once and in
    their order, each with the first greatest score of its candidates of the name. -/
theorem ofSelections_groups (hfields : fields.Nodup) (hlength : selections.length = fields.length)
    (hcolumns : ∀ selection ∈ selections, ∀ c ∈ selection, c.column < apis.length)
    (hscores : ∀ selection ∈ selections, ∀ c ∈ selection, c.score.isNaN = false) :
    ∃ rs, ofSelections fields apis selections = some rs ∧
      rs.names.map some =
        (selections.flatten.map fun c => apis[c.column]?.map (·.name)).eraseDups ∧
      ∀ name entries, (name, entries) ∈ rs.entries →
        (entries.map (·.field)).Nodup ∧
        List.Forall₂
          (fun entry r => r.field = entry.1 ∧ FirstGreatest (scoresUnder apis name entry.2) r.score)
          (fieldsUnder apis name (fields.zip selections)) entries := by
  refine ⟨_, ofSelections_eq_some hcolumns, ?_, fun name entries hentries => ?_⟩
  · rw [names_grouped, ← eraseDups_map (Option.some_injective _),
      map_some_flatMap_hits hlength hcolumns]
  have hlisted : (grouped fields apis selections).listed name = entries := by
    rw [listed, Table.mem_entries_iff.1 hentries]
    rfl
  constructor
  · rw [← hlisted, grouped, listed_keepBest]
    exact nodup_map_field_bestOfEachField _
  · rw [← hlisted, listed_grouped_eq_flatMap hfields (Nat.le_of_eq hlength.symm)]
    exact forall₂_flatMap_bestOfEachField fun entry hentry =>
      hscores entry.2 (List.of_mem_zip hentry).2

/-- Two API methods of one name, for which the first field has scores that do not descend, and the
    second field both zeros. -/
theorem ofSelections_groups_shared :
    let fields := ["id", "mail"]
    let apis : List Method := [⟨"find", "by key"⟩, ⟨"list", "all"⟩, ⟨"find", "by mail"⟩]
    let selections : List (List Candidate) :=
      [[⟨1, 0.5⟩, ⟨0, 0.25⟩, ⟨2, 0.75⟩], [⟨2, -0.0⟩, ⟨0, 0.0⟩]]
    (fields.Nodup ∧ selections.length = fields.length ∧
        (∀ selection ∈ selections, ∀ c ∈ selection, c.column < apis.length) ∧
        ∀ selection ∈ selections, ∀ c ∈ selection, c.score.isNaN = false) ∧
      ∃ rs, ofSelections fields apis selections = some rs ∧
        rs.names.map some = [some "list", some "find"] ∧
        ∀ entries, ("find", entries) ∈ rs.entries →
          ∃ x y, entries = [⟨"id", x⟩, ⟨"mail", y⟩] ∧ FirstGreatest [0.25, 0.75] x ∧
            FirstGreatest [-0.0, 0.0] y := by
  intro fields apis selections
  have hfields : fields.Nodup := by decide
  have hcolumns : ∀ selection ∈ selections, ∀ c ∈ selection, c.column < apis.length := by decide
  have hscores : ∀ selection ∈ selections, ∀ c ∈ selection, c.score.isNaN = false := by
    decide +kernel
  obtain ⟨rs, hrs, hnames, hgroups⟩ := ofSelections_groups hfields rfl hcolumns hscores
  refine ⟨⟨hfields, rfl, hcolumns, hscores⟩, rs, hrs, hnames, fun entries hentries => ?_⟩
  have hgroup := (hgroups "find" entries hentries).2
  have hunder : fieldsUnder apis "find" (fields.zip selections) = fields.zip selections := rfl
  rw [hunder] at hgroup
  obtain ⟨⟨_, x⟩, _, ⟨rfl, hx⟩, hlater, rfl⟩ := List.forall₂_cons_left_iff.1 hgroup
  obtain ⟨⟨_, y⟩, _, ⟨rfl, hy⟩, hlast, rfl⟩ := List.forall₂_cons_left_iff.1 hlater
  rw [List.forall₂_nil_left_iff.1 hlast]
  exact ⟨x, y, rfl, hx, hy⟩

end SchemaMatch.Recommendations

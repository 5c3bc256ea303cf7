import Mathlib.Data.List.Basic
import Mathlib.Data.List.Induction
import SchemaMatch.Proofs.Precision.Order
import SchemaMatch.Proofs.Table
import SchemaMatch.Recommendations

/-!
# Grouping by API name

The selections of all fields, read field by field and from the best candidate down, are one list of
`hits`, each a recommendation under a name. Collecting them (`collect`) keeps, under each name, its
hits in their order (`listed_collect`), and the names in the order in which they are first hit
(`names_collect`). No name is ever without a recommendation (`Occupied`). If all API methods that
are selected exist, their hits are what the selections amount to (`ofSelections_eq_some`).

Afterwards each field keeps its greatest score. Fields do not interfere (`bestOfEachField_append`),
and where the scores of a field descend its first hit is the one that stays. So a field is
recommended under a name for the first candidate of the name in its selection: `listed_grouped`.
-/

namespace SchemaMatch.Recommendations

variable {rs : Recommendations} {name : String} {apis : List Method}

/-- The recommendations under a name, which are none if the name is absent. -/
def listed (rs : Recommendations) (name : String) : List Recommendation :=
  (rs.get? name).getD []

theorem mem_listed_iff {r : Recommendation} :
    r ∈ rs.listed name ↔ ∃ held, rs.get? name = some held ∧ r ∈ held := by
  rw [listed]
  cases rs.get? name <;> simp

/-- Whether every name that is there has a recommendation. -/
def Occupied (rs : Recommendations) : Prop := ∀ name, rs.get? name ≠ some []

theorem get?_eq_none_iff_listed (h : rs.Occupied) : rs.get? name = none ↔ rs.listed name = [] := by
  have hname := h name
  rw [listed]
  cases hget : rs.get? name with
  | none => simp
  | some held => simpa [hget] using hname

/-! ## Collecting -/

theorem get?_push (rs : Recommendations) (api field : String) (score : Float) :
    (rs.push api field score).get? name =
      if name = api then some (rs.listed api ++ [⟨field, score⟩]) else rs.get? name :=
  Table.get?_change rs api name _

theorem listed_push (rs : Recommendations) (api field : String) (score : Float) :
    (rs.push api field score).listed name =
      rs.listed name ++ if api = name then [⟨field, score⟩] else [] := by
  rw [listed, get?_push]
  by_cases h : api = name
  · simp [h]
  · simp [h, Ne.symm h, listed]

theorem Occupied.push (h : rs.Occupied) (api field : String) (score : Float) :
    (rs.push api field score).Occupied := by
  intro name
  rw [get?_push]
  split
  · simp
  · exact h name

/-- The hits of a field: the candidates selected for it, each under the name of its API method. -/
def hits (apis : List Method) (field : String) (selection : List Candidate) :
    List (String × Recommendation) :=
  selection.filterMap fun c => apis[c.column]?.map fun api => (api.name, ⟨field, c.score⟩)

/-- The recommendations that some hits amount to, one after the other. -/
def collect (found : List (String × Recommendation)) : Recommendations :=
  found.foldl (fun rs hit => rs.push hit.1 hit.2.field hit.2.score) Table.empty

theorem collect_append_singleton (found : List (String × Recommendation))
    (hit : String × Recommendation) :
    collect (found ++ [hit]) = (collect found).push hit.1 hit.2.field hit.2.score := by
  simp [collect]

theorem occupied_collect (found : List (String × Recommendation)) : (collect found).Occupied := by
  induction found using List.reverseRecOn with
  | nil => exact fun _ => by simp [collect, Table.get?, Table.empty]
  | append_singleton found hit ih =>
    rw [collect_append_singleton]
    exact ih.push _ _ _

/-- Under a name are its hits, in their order. -/
theorem listed_collect (found : List (String × Recommendation)) :
    (collect found).listed name = (found.filter (·.1 = name)).map (·.2) := by
  induction found using List.reverseRecOn with
  | nil => rfl
  | append_singleton found hit ih =>
    rw [collect_append_singleton, listed_push, ih, List.filter_append, List.map_append]
    by_cases h : hit.1 = name <;> simp [h]

/-- The names are in the order in which they are first hit. -/
theorem names_collect (found : List (String × Recommendation)) :
    (collect found).names = (found.map (·.1)).eraseDups := by
  induction found using List.reverseRecOn with
  | nil => rfl
  | append_singleton found hit ih =>
    rw [collect_append_singleton, List.map_append]
    exact Table.names_change_eraseDups ih _ _

/-- The recommendations that selections for each field amount to: all their hits, field by field,
    with the best of each field. -/
def grouped (fields : List String) (apis : List Method) (selections : List (List Candidate)) :
    Recommendations :=
  keepBest (collect ((fields.zip selections).flatMap fun entry => hits apis entry.1 entry.2))

theorem pushSelection_eq_some {field : String} {selection : List Candidate}
    (hcolumns : ∀ c ∈ selection, c.column < apis.length) (rs : Recommendations) :
    pushSelection apis rs field selection =
      some ((hits apis field selection).foldl
        (fun rs hit => rs.push hit.1 hit.2.field hit.2.score) rs) := by
  induction selection generalizing rs with
  | nil => rfl
  | cons c later ih =>
    have hapi := List.getElem?_eq_getElem (hcolumns c (by simp))
    rw [pushSelection, List.foldlM_cons, hapi, hits, List.filterMap_cons, hapi]
    exact ih (fun d hd => hcolumns d (List.mem_cons_of_mem _ hd)) _

/-- Selections of API methods that exist amount to recommendations. -/
theorem ofSelections_eq_some {fields : List String} {selections : List (List Candidate)}
    (hcolumns : ∀ selection ∈ selections, ∀ c ∈ selection, c.column < apis.length) :
    ofSelections fields apis selections = some (grouped fields apis selections) := by
  have hall : ∀ entry ∈ fields.zip selections, ∀ c ∈ entry.2, c.column < apis.length :=
    fun entry hentry => hcolumns _ (List.of_mem_zip hentry).2
  suffices h : ∀ (entries : List (String × List Candidate)) (rs : Recommendations),
      (∀ entry ∈ entries, ∀ c ∈ entry.2, c.column < apis.length) →
      entries.foldlM (fun rs entry => pushSelection apis rs entry.1 entry.2) rs =
        some ((entries.flatMap fun entry => hits apis entry.1 entry.2).foldl
          (fun rs hit => rs.push hit.1 hit.2.field hit.2.score) rs) by
    rw [ofSelections, h _ _ hall]
    rfl
  intro entries
  induction entries with
  | nil => exact fun _ _ => rfl
  | cons entry later ih =>
    intro rs hentries
    rw [List.foldlM_cons, pushSelection_eq_some (hentries entry (by simp)), List.flatMap_cons,
      List.foldl_append]
    exact ih _ fun e he => hentries e (List.mem_cons_of_mem _ he)

/-! ## Keeping the best -/

/-- A field that is kept already stays where it is, and another one comes last. -/
theorem map_field_raise (r : Recommendation) (kept : List Recommendation) :
    (raise r kept).map (·.field) =
      if r.field ∈ kept.map (·.field) then kept.map (·.field)
      else kept.map (·.field) ++ [r.field] := by
  induction kept with
  | nil => simp [raise]
  | cons first later ih =>
    by_cases hfirst : first.field = r.field
    · have hkept :
          (if first.score < r.score then { first with score := r.score } else first).field =
            first.field := by split <;> rfl
      rw [raise, if_pos hfirst, List.map_cons, List.map_cons, hkept, if_pos (by simp [hfirst])]
    · rw [raise, if_neg hfirst, List.map_cons, ih, List.map_cons]
      by_cases hmem : r.field ∈ later.map (·.field) <;> simp [hmem, Ne.symm hfirst]

theorem bestOfEachField_append_singleton (earlier : List Recommendation) (r : Recommendation) :
    bestOfEachField (earlier ++ [r]) = raise r (bestOfEachField earlier) :=
  List.foldl_append

/-- The fields that are kept are all that come, in the order in which they first come. -/
theorem map_field_bestOfEachField (entries : List Recommendation) :
    (bestOfEachField entries).map (·.field) = (entries.map (·.field)).eraseDups := by
  induction entries using List.reverseRecOn with
  | nil => rfl
  | append_singleton earlier r ih =>
    rw [bestOfEachField_append_singleton, map_field_raise, ih, List.map_append, List.map_singleton,
      eraseDups_append_singleton]
    simp only [List.mem_eraseDups]

theorem nodup_map_field_bestOfEachField (entries : List Recommendation) :
    ((bestOfEachField entries).map (·.field)).Nodup := by
  rw [map_field_bestOfEachField]
  exact nodup_eraseDups _

/-- Only fields that come are kept. -/
theorem field_mem_of_mem_bestOfEachField {entries : List Recommendation} {held : Recommendation}
    (h : held ∈ bestOfEachField entries) : ∃ r ∈ entries, r.field = held.field := by
  have hfield := List.mem_map_of_mem (f := (·.field)) h
  rw [map_field_bestOfEachField, List.mem_eraseDups] at hfield
  exact List.mem_map.1 hfield

theorem raise_append {r : Recommendation} {kept : List Recommendation}
    (h : ∀ held ∈ kept, held.field ≠ r.field) (others : List Recommendation) :
    raise r (kept ++ others) = kept ++ raise r others := by
  induction kept with
  | nil => rfl
  | cons first later ih =>
    rw [List.cons_append, raise, if_neg (h first (by simp)),
      ih fun held hheld => h held (List.mem_cons_of_mem _ hheld), List.cons_append]

/-- Entries of other fields leave what is kept alone. -/
theorem bestOfEachField_append {earlier later : List Recommendation}
    (h : ∀ r ∈ earlier, ∀ s ∈ later, r.field ≠ s.field) :
    bestOfEachField (earlier ++ later) = bestOfEachField earlier ++ bestOfEachField later := by
  induction later using List.reverseRecOn with
  | nil => simp [bestOfEachField]
  | append_singleton later s ih =>
    have ih := ih fun r hr s hs => h r hr s (List.mem_append_left _ hs)
    have hs : ∀ held ∈ bestOfEachField earlier, held.field ≠ s.field := fun held hheld => by
      obtain ⟨r, hr, hfield⟩ := field_mem_of_mem_bestOfEachField hheld
      exact hfield ▸ h r hr s (by simp)
    rw [← List.append_assoc, bestOfEachField_append_singleton, bestOfEachField_append_singleton, ih,
      raise_append hs]

/-- Of one field whose first score is the greatest, the first entry is kept. -/
theorem bestOfEachField_of_first {first : Recommendation} {later : List Recommendation}
    (hfield : ∀ r ∈ later, r.field = first.field) (hscore : ∀ r ∈ later, ¬first.score < r.score) :
    bestOfEachField (first :: later) = [first] := by
  induction later using List.reverseRecOn with
  | nil => rfl
  | append_singleton later r ih =>
    have ih := ih (fun r hr => hfield r (List.mem_append_left _ hr))
      fun r hr => hscore r (List.mem_append_left _ hr)
    rw [← List.cons_append, bestOfEachField_append_singleton, ih]
    simp [raise, hfield r (by simp), hscore r (by simp)]

theorem listed_keepBest (rs : Recommendations) :
    rs.keepBest.listed name = bestOfEachField (rs.listed name) := by
  rw [listed, listed, keepBest, Table.get?_map]
  cases rs.get? name <;> rfl

theorem bestOfEachField_ne_nil {entries : List Recommendation} (h : entries ≠ []) :
    bestOfEachField entries ≠ [] := by
  obtain ⟨r, hr⟩ := List.exists_mem_of_ne_nil entries h
  intro hempty
  have hfield : r.field ∈ (bestOfEachField entries).map (·.field) := by
    rw [map_field_bestOfEachField, List.mem_eraseDups]
    exact List.mem_map_of_mem hr
  simp [hempty] at hfield

theorem Occupied.keepBest (h : rs.Occupied) : rs.keepBest.Occupied := by
  intro name
  rw [Recommendations.keepBest, Table.get?_map]
  cases hget : rs.get? name with
  | none => simp
  | some held => simpa using bestOfEachField_ne_nil fun e => h name (e ▸ hget)

/-! ## The recommendations of selections -/

variable {field : String} {selection : List Candidate} {selected : List (String × List Candidate)}

/-- Whether a candidate is the column of an API method of a name. -/
def bears (apis : List Method) (name : String) (c : Candidate) : Bool :=
  apis[c.column]?.map (·.name) == some name

/-- The recommendation of a field under a name: for the first candidate of the name. -/
def leading? (apis : List Method) (name : String) (entry : String × List Candidate) :
    Option Recommendation :=
  (entry.2.find? (bears apis name)).map fun c => ⟨entry.1, c.score⟩

theorem filter_hits (apis : List Method) (name field : String) (selection : List Candidate) :
    ((hits apis field selection).filter (·.1 = name)).map (·.2) =
      (selection.filter (bears apis name)).map fun c => ⟨field, c.score⟩ := by
  induction selection with
  | nil => rfl
  | cons c later ih =>
    rw [hits] at ih ⊢
    rw [List.filterMap_cons, List.filter_cons, bears]
    cases hapi : apis[c.column]? with
    | none => simpa using ih
    | some api =>
      by_cases hname : api.name = name
      · simp [hname, ih]
      · simp [hname, ih]

/-- Where scores descend, the best of the hits of a field under a name is the first one. -/
theorem bestOfEachField_filter_hits (h : selection.Pairwise fun c d => d.score ≤ c.score) :
    bestOfEachField (((hits apis field selection).filter (·.1 = name)).map (·.2)) =
      (leading? apis name (field, selection)).toList := by
  rw [filter_hits, leading?, ← List.head?_filter]
  have hfilter := h.filter (bears apis name)
  cases hbears : selection.filter (bears apis name) with
  | nil => rfl
  | cons first later =>
    rw [hbears, List.pairwise_cons] at hfilter
    rw [List.map_cons, bestOfEachField_of_first]
    · rfl
    · simp
    · intro r hr
      obtain ⟨c, hc, rfl⟩ := List.mem_map.1 hr
      exact Double.not_lt_of_le (hfilter.1 c hc)

theorem field_of_mem_hits {r : Recommendation}
    (h : r ∈ ((hits apis field selection).filter (·.1 = name)).map (·.2)) : r.field = field := by
  rw [filter_hits] at h
  obtain ⟨c, _, rfl⟩ := List.mem_map.1 h
  rfl

/-- The hits under a name, where every field has one selection: the fields do not interfere. -/
theorem bestOfEachField_flatMap_hits (hfields : (selected.map (·.1)).Nodup) :
    bestOfEachField (((selected.flatMap fun entry => hits apis entry.1 entry.2).filter
        (·.1 = name)).map (·.2)) =
      selected.flatMap fun entry =>
        bestOfEachField (((hits apis entry.1 entry.2).filter (·.1 = name)).map (·.2)) := by
  induction selected with
  | nil => rfl
  | cons entry later ih =>
    rw [List.map_cons, List.nodup_cons] at hfields
    rw [List.flatMap_cons, List.filter_append, List.map_append, bestOfEachField_append,
      ih hfields.2, List.flatMap_cons]
    -- A later hit is of another field.
    intro r hr s hs hfield
    simp only [List.mem_map, List.mem_filter, List.mem_flatMap] at hs
    obtain ⟨hit, ⟨⟨e, he, hhit⟩, hname⟩, rfl⟩ := hs
    have hs : hit.2.field = e.1 := field_of_mem_hits (List.mem_map_of_mem
      (List.mem_filter.2 ⟨hhit, hname⟩))
    refine hfields.1 (List.mem_map.2 ⟨e, he, ?_⟩)
    rw [← hs, ← hfield, field_of_mem_hits hr]

variable {fields : List String} {selections : List (List Candidate)}

theorem occupied_grouped (fields : List String) (apis : List Method)
    (selections : List (List Candidate)) : (grouped fields apis selections).Occupied :=
  (occupied_collect _).keepBest

theorem names_grouped (fields : List String) (apis : List Method)
    (selections : List (List Candidate)) :
    (grouped fields apis selections).names =
      (((fields.zip selections).flatMap fun entry => hits apis entry.1 entry.2).map
        (·.1)).eraseDups := by
  rw [grouped, keepBest, Table.names_map, names_collect]

theorem listed_grouped_eq_flatMap (hfields : fields.Nodup)
    (hlength : fields.length ≤ selections.length) :
    (grouped fields apis selections).listed name =
      (fields.zip selections).flatMap fun entry =>
        bestOfEachField (((hits apis entry.1 entry.2).filter (·.1 = name)).map (·.2)) := by
  rw [grouped, listed_keepBest, listed_collect, bestOfEachField_flatMap_hits]
  rwa [List.map_fst_zip hlength]

/-- The fields recommended under a name: field by field, for the first candidate of the name. -/
theorem listed_grouped (hfields : fields.Nodup) (hlength : fields.length ≤ selections.length)
    (hscores : ∀ selection ∈ selections, selection.Pairwise fun c d => d.score ≤ c.score) :
    (grouped fields apis selections).listed name =
      (fields.zip selections).filterMap (leading? apis name) := by
  rw [listed_grouped_eq_flatMap hfields hlength, List.filterMap_eq_flatMap_toList]
  exact List.flatMap_congr fun entry hentry =>
    bestOfEachField_filter_hits (hscores _ (List.of_mem_zip hentry).2)

end SchemaMatch.Recommendations

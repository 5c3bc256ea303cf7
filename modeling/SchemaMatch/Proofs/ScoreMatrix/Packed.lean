import SchemaMatch.Proofs.RowMajor
import SchemaMatch.Proofs.ScoreMatrix
import SchemaMatch.ScoreMatrix.Packed

/-!
# Cells are found where they were put

A packed matrix is built whenever one with rows is, and is its packed form
(`ScoreMatrix.packed_ofRows`, `ScoreMatrix.packed_build`). So it stores the rows it was made from
(`PackedMatrix.Stores`): a cell, a row and the rows in turn are read from different places of one
list, and all agree. Given rows are turned down for the first thing that is wrong with them, and
embeddings are stored as the scores of the pairs: `PackedMatrix.ofRows_build_stores`.
-/

namespace SchemaMatch

/-- Whether a packed matrix stores some rows: it has as many rows as they are, and each way to read
    it gives what stands at the place in these rows, and nothing outside of them. -/
structure PackedMatrix.Stores (m : PackedMatrix) (rows : List (List Float)) : Prop where
  rows_eq : m.rows = rows
  height_eq : m.height = rows.length
  length_row : ∀ row ∈ rows, row.length = m.width
  row?_eq : ∀ i, m.row? i = rows[i]?
  get?_eq : ∀ i j, m.get? i j = rows[i]?.bind (·[j]?)
  row?_eq_none_iff : ∀ i, m.row? i = none ↔ m.height ≤ i
  get?_eq_none_iff : ∀ i j, m.get? i j = none ↔ m.height ≤ i ∨ m.width ≤ j

theorem PackedMatrix.ofRows_cons (first : List Float) (later : List (List Float)) :
    ofRows (first :: later) =
      if first.length = 0 then .error (.emptyInput apiCollection)
      else
        match (first :: later).find? (·.length ≠ first.length) with
        | some row => .error (.dimensionMismatch first.length row.length)
        | none => .ok ⟨(first :: later).length, first.length, (first :: later).flatten⟩ := rfl

theorem PackedMatrix.build_cons (first : Embedding) (later apis : List Embedding)
    (scoring : Scoring) :
    build (first :: later) apis scoring =
      if apis.isEmpty then .error (.emptyInput apiCollection)
      else
        match (first :: later ++ apis).find? (·.dimension ≠ first.dimension) with
        | some v => .error (.dimensionMismatch first.dimension v.dimension)
        | none =>
          match scoring with
          | .cosine => .ok (cosines (first :: later) apis)
          | .projected form => do
            let p ← Projection.seeded first.dimension form
            return cosines ((first :: later).map p.project) (apis.map p.project) := rfl

namespace ScoreMatrix

variable {m : ScoreMatrix} {rows : List (List Float)} {fields apis : List Embedding}
  {scoring : Scoring}

/-! ## Reading -/

theorem rows_packed (m : ScoreMatrix) : m.packed.rows = m.rows :=
  pieces_flatten m.width_pos m.length_row

theorem row?_packed (m : ScoreMatrix) (i : ℕ) : m.packed.row? i = m.row? i := by
  have hheight : m.packed.height = m.rows.length := rfl
  rw [PackedMatrix.row?, hheight, row?]
  split
  · next hi => rw [List.getElem?_eq_getElem hi]; exact slice?_flatten m.length_row hi
  · next hi => rw [List.getElem?_eq_none (Nat.not_lt.1 hi)]

theorem get?_eq_none_iff (m : ScoreMatrix) (i j : ℕ) :
    m.get? i j = none ↔ m.height ≤ i ∨ m.width ≤ j := by
  rw [get?, row?, height]
  rcases Nat.lt_or_ge i m.rows.length with hi | hi
  · rw [List.getElem?_eq_getElem hi, Option.bind_some, List.getElem?_eq_none_iff,
      m.length_row _ (List.getElem_mem hi)]
    exact (or_iff_right (Nat.not_le.2 hi)).symm
  · rw [List.getElem?_eq_none hi, Option.bind_none]
    exact iff_of_true rfl (.inl hi)

theorem get?_packed (m : ScoreMatrix) (i j : ℕ) : m.packed.get? i j = m.get? i j := by
  have hheight : m.packed.height = m.height := rfl
  have hwidth : m.packed.width = m.width := rfl
  rw [PackedMatrix.get?, hheight, hwidth]
  split
  · next h => exact getElem?_flatten m.length_row i h.2
  · next h => exact ((m.get?_eq_none_iff i j).2 (by omega)).symm

/-- The packed form of a matrix stores its rows. -/
theorem stores_packed (m : ScoreMatrix) : m.packed.Stores m.rows where
  rows_eq := m.rows_packed
  height_eq := rfl
  length_row := m.length_row
  row?_eq := m.row?_packed
  get?_eq := m.get?_packed
  row?_eq_none_iff i := by
    rw [row?_packed]
    exact List.getElem?_eq_none_iff
  get?_eq_none_iff i j := by
    rw [get?_packed]
    exact m.get?_eq_none_iff i j

/-! ## Building -/

theorem exists_of_map_packed {r : Except Error ScoreMatrix} {p : PackedMatrix}
    (h : r.map packed = .ok p) : ∃ m, r = .ok m ∧ m.packed = p := by
  cases r with
  | error e => cases h
  | ok m => exact ⟨m, rfl, Except.ok.inj h⟩

theorem packed_ofRows (rows : List (List Float)) :
    PackedMatrix.ofRows rows = (ofRows rows).map packed := by
  cases rows with
  | nil => rfl
  | cons first later =>
    rw [PackedMatrix.ofRows_cons, ofRows]
    by_cases hfirst : first.length = 0
    · rw [if_pos hfirst, dif_pos hfirst]
      rfl
    · -- The first row has its own length, and so the first one of another length is a later one.
      rw [if_neg hfirst, dif_neg hfirst, List.find?_cons_of_neg (by simp)]
      split
      · next row hrow =>
        split
        · next row' hrow' =>
          obtain rfl := Option.some.inj (hrow.symm.trans hrow')
          rfl
        · next hnone => cases hnone.symm.trans hrow
      · next hnone =>
        split
        · next row hrow => cases hnone.symm.trans hrow
        · rfl

theorem packed_cosines (hfields : fields ≠ []) (hapis : apis ≠ []) :
    PackedMatrix.cosines fields apis = (cosines fields apis hfields hapis).packed := by
  rw [PackedMatrix.cosines, packed, height, cosines, List.length_map, ← List.flatMap_eq_foldl]
  rfl

theorem build_cons (first : Embedding) (later : List Embedding) (hapis : apis ≠ [])
    (scoring : Scoring) :
    build (first :: later) apis scoring =
      match (first :: later ++ apis).find? (·.dimension ≠ first.dimension) with
      | some v => .error (.dimensionMismatch first.dimension v.dimension)
      | none =>
        match scoring with
        | .cosine => .ok (cosines (first :: later) apis (List.cons_ne_nil _ _) hapis)
        | .projected form => do
          let p ← Projection.seeded first.dimension form
          return cosines ((first :: later).map p.project) (apis.map p.project)
            (List.cons_ne_nil _ _) (by simpa using hapis) := by
  rw [build, dif_neg (List.cons_ne_nil _ _), dif_neg hapis]
  rfl

theorem packed_build (fields apis : List Embedding) (scoring : Scoring) :
    PackedMatrix.build fields apis scoring = (build fields apis scoring).map packed := by
  cases fields with
  | nil => rfl
  | cons first later =>
    by_cases hapis : apis = []
    · rw [hapis]
      rfl
    · rw [PackedMatrix.build_cons, if_neg (by simpa using hapis), build_cons first later hapis]
      cases (first :: later ++ apis).find? (·.dimension ≠ first.dimension) with
      | some v => rfl
      | none =>
        cases scoring with
        | cosine => exact congrArg Except.ok (packed_cosines (List.cons_ne_nil _ _) hapis)
        | projected form =>
          cases hp : Projection.seeded first.dimension form with
          | error e => simp only [hp]; rfl
          | ok p => simp only [hp]; exact congrArg Except.ok (packed_cosines _ _)

/-- What a built matrix holds: the embeddings have one dimension, and each row has the scores of one
    field. -/
theorem of_build (h : build fields apis scoring = .ok m) :
    ∃ dimension, (∀ v ∈ fields ++ apis, v.dimension = dimension) ∧
      m.rows = fields.map fun v => apis.map (scoring.score dimension v) := by
  cases fields with
  | nil => cases h
  | cons first later =>
    have hapis : apis ≠ [] := by
      rintro rfl
      cases h
    rw [build_cons first later hapis] at h
    refine ⟨first.dimension, ?_⟩
    split at h
    · cases h
    · next hfind =>
      refine ⟨fun v hv => by simpa using List.find?_eq_none.1 hfind v hv, ?_⟩
      cases scoring with
      | cosine =>
        cases h
        rfl
      | projected form =>
        cases hp : Projection.seeded first.dimension form with
        | error e =>
          simp only [hp] at h
          cases h
        | ok p =>
          simp only [hp] at h
          cases h
          rw [(Projection.eq_of_seeded hp).2.2]
          simp only [cosines, List.map_map]
          rfl

theorem rows_of_ofRows (h : ofRows rows = .ok m) : m.rows = rows := by
  cases rows with
  | nil => cases h
  | cons first later =>
    rw [ofRows] at h
    split at h
    · cases h
    · split at h
      · cases h
      · cases h
        rfl

end ScoreMatrix

namespace PackedMatrix

variable {rows : List (List Float)} {m : PackedMatrix} {fields apis : List Embedding}
  {scoring : Scoring}

/-- What is wrong with given rows, and the error that says so: there is no row, or the first one is
    empty, or there is a row of another length, of which the first one is named. -/
inductive Fault : List (List Float) → Error → Prop
  | noRow : Fault [] (.emptyInput fieldCollection)
  | noColumn (later : List (List Float)) : Fault ([] :: later) (.emptyInput apiCollection)
  | otherLength {first row : List Float} {before : List (List Float)}
      (after : List (List Float)) (hfirst : first ≠ [])
      (hbefore : ∀ r ∈ before, r.length = first.length) (hrow : row.length ≠ first.length) :
      Fault (first :: (before ++ row :: after)) (.dimensionMismatch first.length row.length)

/-- Given rows are turned down exactly for what is wrong with them. -/
theorem ofRows_eq_error_iff {e : Error} : ofRows rows = .error e ↔ Fault rows e := by
  constructor
  · intro h
    cases rows with
    | nil =>
      cases h
      exact .noRow
    | cons first later =>
      rw [ofRows_cons] at h
      split at h
      · next hfirst =>
        obtain rfl := List.eq_nil_of_length_eq_zero hfirst
        cases h
        exact .noColumn later
      · next hfirst =>
        split at h
        · next row hfind =>
          cases h
          rw [List.find?_cons_of_neg (by simp), List.find?_eq_some_iff_append] at hfind
          obtain ⟨hrow, before, after, rfl, hbefore⟩ := hfind
          exact .otherLength after (fun hnil => hfirst (congrArg List.length hnil))
            (by simpa using hbefore) (by simpa using hrow)
        · cases h
  · intro h
    cases h with
    | noRow => rfl
    | noColumn later => rfl
    | @otherLength first row before after hfirst hbefore hrow =>
      have hfind : (first :: (before ++ row :: after)).find? (·.length ≠ first.length) =
          some row := by
        rw [List.find?_cons_of_neg (by simp), List.find?_eq_some_iff_append]
        exact ⟨by simpa using hrow, before, after, rfl, by simpa using hbefore⟩
      rw [ofRows_cons, if_neg (mt List.eq_nil_of_length_eq_zero hfirst), hfind]

theorem stores_of_ofRows (h : ofRows rows = .ok m) : m.Stores rows := by
  rw [ScoreMatrix.packed_ofRows] at h
  obtain ⟨m', hrows, rfl⟩ := ScoreMatrix.exists_of_map_packed h
  exact ScoreMatrix.rows_of_ofRows hrows ▸ m'.stores_packed

/-- Rows are taken exactly if there are some, the first one is not empty, and all others are as long
    as it. -/
theorem exists_ofRows_eq_ok_iff : (∃ m, ofRows rows = .ok m) ↔
    ∃ first later, rows = first :: later ∧ first ≠ [] ∧
      ∀ row ∈ later, row.length = first.length := by
  constructor
  · rintro ⟨m, h⟩
    cases rows with
    | nil => cases h
    | cons first later =>
      obtain ⟨hfirst, hlater⟩ := List.forall_mem_cons.1 (stores_of_ofRows h).length_row
      refine ⟨first, later, rfl, ?_, fun row hrow => (hlater row hrow).trans hfirst.symm⟩
      rintro rfl
      cases h
  · rintro ⟨first, later, rfl, hfirst, hlater⟩
    cases h : ofRows (first :: later) with
    | ok m => exact ⟨m, rfl⟩
    | error e =>
      cases ofRows_eq_error_iff.1 h with
      | noColumn => exact absurd rfl hfirst
      | otherLength after _ _ hrow => exact absurd (hlater _ (by simp)) hrow

theorem stores_of_build (h : build fields apis scoring = .ok m) :
    ∃ dimension, (∀ v ∈ fields ++ apis, v.dimension = dimension) ∧
      m.Stores (fields.map fun v => apis.map (scoring.score dimension v)) := by
  rw [ScoreMatrix.packed_build] at h
  obtain ⟨m', hbuild, rfl⟩ := ScoreMatrix.exists_of_map_packed h
  obtain ⟨dimension, hdimension, hrows⟩ := ScoreMatrix.of_build hbuild
  exact ⟨dimension, hdimension, hrows ▸ m'.stores_packed⟩

/-- A packed matrix is made from given rows unless something is wrong with them, and stores them;
    one that is made from embeddings stores the scores of the pairs. Both are the packed forms of
    the matrices with rows, which are read with the same results. -/
theorem ofRows_build_stores :
    (∀ rows e, ofRows rows = .error e ↔ Fault rows e) ∧
    (∀ rows, (∃ m, ofRows rows = .ok m) ↔ ∃ first later, rows = first :: later ∧ first ≠ [] ∧
      ∀ row ∈ later, row.length = first.length) ∧
    (∀ rows m, ofRows rows = .ok m → m.Stores rows) ∧
    (∀ fields apis scoring m, build fields apis scoring = .ok m →
      ∃ dimension, (∀ v ∈ fields ++ apis, v.dimension = dimension) ∧
        m.Stores (fields.map fun v => apis.map fun w => scoring.score dimension v w)) ∧
    (∀ rows, ofRows rows = (ScoreMatrix.ofRows rows).map ScoreMatrix.packed) ∧
    (∀ fields apis scoring, build fields apis scoring =
      (ScoreMatrix.build fields apis scoring).map ScoreMatrix.packed) ∧
    ∀ m : ScoreMatrix, m.packed.height = m.height ∧ m.packed.width = m.width ∧
      m.packed.rows = m.rows ∧ (∀ i, m.packed.row? i = m.row? i) ∧
      ∀ i j, m.packed.get? i j = m.get? i j :=
  ⟨fun _ _ => ofRows_eq_error_iff, fun _ => exists_ofRows_eq_ok_iff, fun _ _ => stores_of_ofRows,
    fun _ _ _ _ => stores_of_build, ScoreMatrix.packed_ofRows, ScoreMatrix.packed_build,
    fun m => ⟨rfl, rfl, m.rows_packed, m.row?_packed, m.get?_packed⟩⟩

/-- Two fields and three API methods. -/
theorem ofRows_build_stores_two_three :
    (∃ m, ofRows [[1, 2, 3], [4, 5, 6]] = .ok m ∧ m.get? 1 0 = some 4 ∧ m.get? 2 0 = none) ∧
    (∃ m, build [⟨[1, 0]⟩, ⟨[0, 1]⟩] [⟨[1, 1]⟩, ⟨[1, 0]⟩, ⟨[0, 1]⟩] .cosine = .ok m ∧
      m.get? 1 2 = some (Embedding.cosine ⟨[0, 1]⟩ ⟨[0, 1]⟩) ∧ m.row? 2 = none) ∧
    Fault [[1, 2], [3, 4], [5]] (.dimensionMismatch 2 1) := by
  obtain ⟨hfault, hok, hrows, hbuild, -⟩ := ofRows_build_stores
  refine ⟨?_, ?_, ?_⟩
  · obtain ⟨m, hm⟩ := (hok [[1, 2, 3], [4, 5, 6]]).2
      ⟨[1, 2, 3], [[4, 5, 6]], rfl, List.cons_ne_nil _ _, by simp⟩
    have hstores := hrows _ m hm
    exact ⟨m, hm, hstores.get?_eq 1 0, hstores.get?_eq 2 0⟩
  · have hm : ∃ m, build [⟨[1, 0]⟩, ⟨[0, 1]⟩] [⟨[1, 1]⟩, ⟨[1, 0]⟩, ⟨[0, 1]⟩] .cosine = .ok m :=
      ⟨_, rfl⟩
    obtain ⟨m, hm⟩ := hm
    obtain ⟨dimension, -, hstores⟩ := hbuild _ _ _ m hm
    exact ⟨m, hm, hstores.get?_eq 1 2, hstores.row?_eq 2⟩
  · exact (hfault _ _).1 rfl

end PackedMatrix

end SchemaMatch

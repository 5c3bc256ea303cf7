import SchemaMatch.Json.Reader.Number
import SchemaMatch.Proofs.Precision.Narrowing
import SchemaMatch.Proofs.Provider.Responses

/-!
# The responses that are accepted

A response is accepted if it has vectors in one of the three shapes (`HasVectors`), and in no other
case: what is accepted one by one is what is accepted as a list (`exists_forall₂_of_mapM`), so that
the vectors of numbers behind a result are found again from the inside out, those of a list
(`exists_of_vectorsOfJson`) and those of items (`exists_of_itemsOfJson`). What stands under
`embeddings` is taken even if it is no list of vectors.

The numbers of a vector go to single precision by way of double precision. This makes a difference
only to whole numbers of more than 53 binary digits (`narrowed_of_fitsDouble`), and it does make
one: `responseVectors_rounded_twice`.
-/

namespace SchemaMatch

open Json

/-! ## Shapes -/

/-- Whether a response has some vectors: it is a list of them, or it has such a list under
    `embeddings`, or it has nothing there and has items under `data`, which are put in order by
    where they stand. -/
inductive HasVectors : Value → List (List Float32) → Prop
  | listed (vectors : List (List Number)) :
    HasVectors (.array (vectors.map vectorValue)) (vectors.map narrowed)
  | embeddings {members : List (String × Value)} (vectors : List (List Number))
    (hembeddings : lastMember? "embeddings" members = some (.array (vectors.map vectorValue))) :
    HasVectors (.object members) (vectors.map narrowed)
  | data {members : List (String × Value)} {items : List Value}
    (entries : List (List Number × Option Value)) (order : List Placed)
    (hembeddings : lastMember? "embeddings" members = none)
    (hdata : lastMember? "data" members = some (.array items))
    (hitems : List.Forall₂ (fun item entry => IsItem entry.1 entry.2 item) items entries)
    (hperm : order.Perm (placedItems entries)) (hbefore : order.Pairwise Placed.Before) :
    HasVectors (.object members) (order.map (·.vector))

/-! ## What is accepted one by one -/

section Except

variable {ε α β γ : Type} {f : α → Except ε β} {items : List α} {results : List β} {fault : ε}

theorem exists_of_map_eq_ok {x : Except ε α} {g : α → β} {b : β} (h : x.map g = .ok b) :
    ∃ a, x = .ok a := by
  cases x with
  | error fault => cases h
  | ok a => exact ⟨a, rfl⟩

theorem eq_error_of_map {x : Except ε α} {g : α → β} (h : x.map g = .error fault) :
    x = .error fault := by
  cases x with
  | error fault =>
    cases h
    rfl
  | ok a => cases h

/-- If each item that is accepted is related to something, those that are accepted as a list are so
    one by one. -/
theorem exists_forall₂_of_mapM {r : α → γ → Prop} (hf : ∀ a b, f a = .ok b → ∃ c, r a c)
    (h : items.mapM f = .ok results) : ∃ forms : List γ, List.Forall₂ r items forms := by
  induction items generalizing results with
  | nil => exact ⟨[], .nil⟩
  | cons a later ih =>
    rw [List.mapM_cons] at h
    cases hfirst : f a with
    | error fault =>
      rw [hfirst] at h
      cases h
    | ok b =>
      cases hlater : later.mapM f with
      | error fault =>
        rw [hfirst, hlater] at h
        cases h
      | ok results =>
        obtain ⟨c, hc⟩ := hf a b hfirst
        obtain ⟨forms, hforms⟩ := ih hlater
        exact ⟨c :: forms, .cons hc hforms⟩

/-- If each item that is accepted is of a form, those that are accepted as a list are so as well. -/
theorem exists_map_of_mapM {form : γ → α} (hf : ∀ a b, f a = .ok b → ∃ c, a = form c)
    (h : items.mapM f = .ok results) : ∃ forms : List γ, items = forms.map form := by
  obtain ⟨forms, hforms⟩ := exists_forall₂_of_mapM hf h
  refine ⟨forms, ?_⟩
  rwa [← List.forall₂_eq_eq_eq, List.forall₂_map_right_iff]

/-- A fault of a list is that of one of its items. -/
theorem exists_mem_of_mapM_error (h : items.mapM f = .error fault) :
    ∃ a ∈ items, f a = .error fault := by
  induction items with
  | nil => cases h
  | cons a later ih =>
    rw [List.mapM_cons] at h
    cases hfirst : f a with
    | error other =>
      rw [hfirst] at h
      cases h
      exact ⟨a, List.mem_cons_self, hfirst⟩
    | ok b =>
      cases hlater : later.mapM f with
      | error other =>
        rw [hfirst, hlater] at h
        cases h
        obtain ⟨item, hitem, hfault⟩ := ih hlater
        exact ⟨item, List.mem_cons_of_mem _ hitem, hfault⟩
      | ok results =>
        rw [hfirst, hlater] at h
        cases h

end Except

/-! ## Accepted values -/

theorem exists_of_vectorOfJson {value : Value} {result : List Float32}
    (h : vectorOfJson value = .ok result) : ∃ vector, value = vectorValue vector := by
  have hnumber : ∀ item x, componentOfJson item = .ok x → ∃ n, item = Value.number n := by
    rintro (_ | _ | n | _ | _ | _) x hitem <;> first | exact ⟨n, rfl⟩ | cases hitem
  cases value with
  | array items =>
    obtain ⟨vector, rfl⟩ := exists_map_of_mapM hnumber h
    exact ⟨vector, rfl⟩
  | _ => cases h

theorem exists_of_vectorsOfJson {value : Value} {result : List (List Float32)}
    (h : vectorsOfJson value = .ok result) :
    ∃ vectors : List (List Number),
      value = .array (vectors.map vectorValue) ∧ result = vectors.map narrowed := by
  cases value with
  | array items =>
    have hmap := h
    rw [vectorsOfJson] at hmap
    split at hmap
    · obtain ⟨vectors, rfl⟩ := exists_map_of_mapM (fun _ _ => exists_of_vectorOfJson) hmap
      rw [vectorsOfJson_vectorValues, Except.ok.injEq] at h
      exact ⟨vectors, rfl, h.symm⟩
    · cases hmap
  | _ => cases h

theorem exists_of_itemOfJson {position : Nat} {item : Value} {result : Nat × List Float32}
    (h : itemOfJson position item = .ok result) :
    ∃ entry : List Number × Option Value, IsItem entry.1 entry.2 item := by
  cases item with
  | object members =>
    rw [itemOfJson] at h
    cases hvalue : lastMember? "embedding" members with
    | none =>
      rw [hvalue] at h
      cases h
    | some value =>
      simp only [hvalue] at h
      obtain ⟨v, hvector⟩ := exists_of_map_eq_ok h
      obtain ⟨vector, rfl⟩ := exists_of_vectorOfJson hvector
      exact ⟨(vector, lastMember? "index" members), members, rfl, hvalue, rfl⟩
  | _ => cases h

theorem exists_of_itemsOfJson {items : List Value} {result : List (List Float32)}
    (h : itemsOfJson items = .ok result) :
    ∃ entries : List (List Number × Option Value),
      List.Forall₂ (fun item entry => IsItem entry.1 entry.2 item) items entries ∧
        result = (sortPlaced (placedItems entries)).map (·.vector) := by
  obtain ⟨placed, hplaced⟩ := exists_of_map_eq_ok h
  obtain ⟨entries, hentries⟩ := exists_forall₂_of_mapM (fun _ _ => exists_of_itemOfJson) hplaced
  have hitems : List.Forall₂ (fun item entry => IsItem entry.1 entry.2 item) items entries := by
    rwa [← List.zipIdx_map_fst 0 items, List.forall₂_map_left_iff]
  rw [itemsOfJson_eq_sortPlaced hitems, Except.ok.injEq] at h
  exact ⟨entries, hitems, h.symm⟩

/-! ## Faults -/

/-- Whether a fault is one of the shape of a response. -/
def EmbeddingFault.ConcernsShape : EmbeddingFault → Prop
  | .vectorsExpected _ | .vectorExpected _ | .numberExpected _ => True
  | .itemNotObject | .vectorMissing | .unknownShape => True
  | _ => False

section Faults

variable {value : Value} {fault : EmbeddingFault}

theorem concernsShape_of_vectorOfJson (h : vectorOfJson value = .error fault) :
    fault.ConcernsShape := by
  cases value with
  | array items =>
    obtain ⟨item, -, hitem⟩ := exists_mem_of_mapM_error h
    cases item <;> cases hitem <;> trivial
  | _ =>
    cases h
    trivial

theorem concernsShape_of_vectorsOfJson (h : vectorsOfJson value = .error fault) :
    fault.ConcernsShape := by
  cases value with
  | array items =>
    rw [vectorsOfJson] at h
    split at h
    · obtain ⟨item, -, hitem⟩ := exists_mem_of_mapM_error h
      exact concernsShape_of_vectorOfJson hitem
    · cases h
      trivial
  | _ =>
    cases h
    trivial

theorem concernsShape_of_itemOfJson {position : Nat}
    (h : itemOfJson position value = .error fault) : fault.ConcernsShape := by
  cases value with
  | object members =>
    rw [itemOfJson] at h
    split at h
    · cases h
      trivial
    · exact concernsShape_of_vectorOfJson (eq_error_of_map h)
  | _ =>
    cases h
    trivial

theorem concernsShape_of_itemsOfJson {items : List Value} (h : itemsOfJson items = .error fault) :
    fault.ConcernsShape := by
  obtain ⟨entry, -, hentry⟩ := exists_mem_of_mapM_error (eq_error_of_map h)
  exact concernsShape_of_itemOfJson hentry

theorem concernsShape_of_responseVectors (h : responseVectors value = .error fault) :
    fault.ConcernsShape := by
  cases value with
  | object members =>
    rw [responseVectors] at h
    split at h
    · exact concernsShape_of_vectorsOfJson h
    · exact concernsShape_of_itemsOfJson h
    · cases h
      trivial
  | _ =>
    simp only [responseVectors] at h
    exact concernsShape_of_vectorsOfJson h

end Faults

/-! ## Numbers -/

/-- Whether a number that is read is one in double precision, or a whole number of at most 53 binary
    digits. -/
def Json.Number.FitsDouble : Number → Prop
  | .whole k => k.natAbs < 2 ^ 53
  | .double _ => True
  | .single _ => False

theorem narrowed_of_fitsDouble {vector : List Number} (h : ∀ n ∈ vector, n.FitsDouble) :
    narrowed vector = vector.map Number.toSingle := by
  refine List.map_congr_left fun n hn => ?_
  cases n with
  | whole k => exact narrow_doubleOfInt (h _ hn)
  | double x => rfl
  | single x => exact (h _ hn).elim

/-! ## Responses -/

/-- Items that are sorted by where they stand are in the only order in which each is before those
    that follow it. -/
theorem eq_sortPlaced {entries : List (List Number × Option Value)} {order : List Placed}
    (hperm : order.Perm (placedItems entries)) (hbefore : order.Pairwise Placed.Before) :
    order = sortPlaced (placedItems entries) := by
  have hantisymm : ∀ p q : Placed, p.Before q → q.Before p → p = q := by
    rintro p q (hpq | ⟨hpq, hpq'⟩) (hqp | ⟨hqp, hqp'⟩) <;> omega
  exact (hperm.trans (List.mergeSort_perm _ _).symm).eq_of_pairwise
    (fun p q _ _ => hantisymm p q) hbefore (pairwise_sortPlaced entries)

theorem hasVectors_of_responseVectors {value : Value} {result : List (List Float32)}
    (h : responseVectors value = .ok result) : HasVectors value result := by
  cases value with
  | array items =>
    simp only [responseVectors] at h
    obtain ⟨vectors, hvalue, rfl⟩ := exists_of_vectorsOfJson h
    rw [hvalue]
    exact .listed vectors
  | object members =>
    -- Items are only looked for if there is nothing under `embeddings`.
    cases hembeddings : lastMember? "embeddings" members with
    | some value =>
      simp only [responseVectors, hembeddings] at h
      obtain ⟨vectors, rfl, rfl⟩ := exists_of_vectorsOfJson h
      exact .embeddings vectors hembeddings
    | none =>
      simp only [responseVectors, hembeddings] at h
      split at h
      · next hsome => cases hsome
      · next items _ hdata =>
        obtain ⟨entries, hitems, rfl⟩ := exists_of_itemsOfJson h
        exact .data entries _ hembeddings hdata hitems (List.mergeSort_perm _ _)
          (pairwise_sortPlaced entries)
      · cases h
  | _ => cases h

theorem responseVectors_of_hasVectors {value : Value} {result : List (List Float32)}
    (h : HasVectors value result) : responseVectors value = .ok result := by
  cases h with
  | listed vectors => exact vectorsOfJson_vectorValues vectors
  | embeddings vectors hembeddings =>
    simp only [responseVectors, hembeddings]
    exact vectorsOfJson_vectorValues vectors
  | data entries order hembeddings hdata hitems hperm hbefore =>
    rw [responseVectors_data hembeddings hdata, itemsOfJson_eq_sortPlaced hitems,
      eq_sortPlaced hperm hbefore]

/-- A response is accepted if and only if it has vectors in one of the three shapes, and these are
    the result; in every other case there is a fault in its shape. The numbers of a vector are
    rounded to single precision, and only whole numbers of more than 53 binary digits are rounded to
    double precision before. -/
theorem responseVectors_accepts (value : Value) :
    (∀ result, responseVectors value = .ok result ↔ HasVectors value result) ∧
      ((∀ result, ¬HasVectors value result) → ∃ fault : EmbeddingFault, fault.ConcernsShape ∧
        (responseVectors value).mapError Error.embeddingFailure =
          .error (.embeddingFailure fault)) ∧
      ∀ vector : List Number, (∀ n ∈ vector, n.FitsDouble) →
        narrowed vector = vector.map Number.toSingle := by
  refine ⟨fun result => ⟨hasVectors_of_responseVectors, responseVectors_of_hasVectors⟩,
    fun hnone => ?_, fun vector => narrowed_of_fitsDouble⟩
  cases hresult : responseVectors value with
  | ok result => exact absurd (hasVectors_of_responseVectors hresult) (hnone result)
  | error fault => exact ⟨fault, concernsShape_of_responseVectors hresult, rfl⟩

/-- What stands under `embeddings` counts, even if it is not a list of vectors and there are items
    under `data`; and a vector of numbers that double precision holds. -/
theorem responseVectors_accepts_misplaced :
    let items := Value.array [.object [("embedding", vectorValue [.whole 2, .double 0.5])]]
    HasVectors (.object [("data", items)]) [[2, 0.5]] ∧
      ∃ fault : EmbeddingFault, fault.ConcernsShape ∧
        (responseVectors (.object [("embeddings", .null), ("data", items)])).mapError
          Error.embeddingFailure = .error (.embeddingFailure fault) := by
  intro items
  have hfits : ∀ n ∈ [Number.whole 2, .double 0.5], n.FitsDouble := by
    simp [Number.FitsDouble]
  have hsingle : [Number.whole 2, .double 0.5].map Number.toSingle = [2, 0.5] := by decide +kernel
  refine ⟨?_, ?_⟩
  · obtain ⟨haccepts, -, hnumbers⟩ := responseVectors_accepts (.object [("data", items)])
    rw [← hsingle, ← hnumbers _ hfits, ← haccepts]
    exact itemsOfJson_of_unnumbered (.cons ⟨_, rfl, rfl, rfl⟩ .nil)
  · refine (responseVectors_accepts _).2.1 fun result h => ?_
    cases h with
    | embeddings vectors hembeddings => cases hembeddings
    | data entries order hembeddings => cases hembeddings

/-- A whole number of 64 binary digits that lies a little above the middle between two numbers in
    single precision: rounded to double precision, it comes to lie in the middle, and goes down from
    there. -/
theorem responseVectors_rounded_twice :
    ¬∀ (vectors : List (List Number)) (result : List (List Float32)),
      responseVectors (.array (vectors.map vectorValue)) = .ok result →
        result = vectors.map (List.map Number.toSingle) := by
  intro h
  have htwice : narrow (Number.whole 9223372586610589697).toDouble ≠
      (Number.whole 9223372586610589697).toSingle := by
    decide +kernel
  have hvectors := h [[.whole 9223372586610589697]] _ (responseVectors_of_hasVectors (.listed _))
  simp only [List.map_cons, List.map_nil, narrowed, List.cons.injEq, and_true] at hvectors
  exact htwice hvectors

end SchemaMatch

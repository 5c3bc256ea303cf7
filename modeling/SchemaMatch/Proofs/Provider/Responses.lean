import Mathlib.Data.List.Forall2
import SchemaMatch.Proofs.Sorting
import SchemaMatch.Provider.Remote

/-!
# The vectors of a response

Whatever the shape of a response, its vectors come out as they were put in: from a list of them,
from such a list under `embeddings`, and from items under `data` (`responseVectors_shapes`). An item
stands by its index, or by its position if it has none (`placeOf`), and items are sorted by where
they stand, those of one place by their positions (`Placed.Before`). So no vector is lost and none
is repeated, and if the items are numbered from zero on, in whatever order they come, the vectors
are in the order of the numbers.
-/

namespace SchemaMatch

open Json

/-- The JSON form of a vector of numbers. -/
def vectorValue (vector : List Number) : Value :=
  .array (vector.map .number)

/-- A vector of numbers in single precision. -/
def narrowed (vector : List Number) : List Float32 :=
  vector.map fun n => narrow n.toDouble

theorem mapM_eq_ok_of_forall₂ {ε α β : Type} {f : α → Except ε β} {items : List α}
    {results : List β} (h : List.Forall₂ (fun a b => f a = .ok b) items results) :
    items.mapM f = .ok results := by
  induction h with
  | nil => rfl
  | cons hfirst _ ih =>
    rw [List.mapM_cons, hfirst, ih]
    rfl

/-! ## Lists of vectors -/

theorem vectorOfJson_vectorValue (vector : List Number) :
    vectorOfJson (vectorValue vector) = .ok (narrowed vector) := by
  refine mapM_eq_ok_of_forall₂ ?_
  rw [narrowed, List.forall₂_map_left_iff, List.forall₂_map_right_iff, List.forall₂_same]
  exact fun _ _ => rfl

theorem vectorsOfJson_vectorValues (vectors : List (List Number)) :
    vectorsOfJson (.array (vectors.map vectorValue)) = .ok (vectors.map narrowed) := by
  have harrays : (vectors.map vectorValue).all isArray = true := by
    simp [vectorValue, isArray]
  rw [vectorsOfJson, if_pos harrays]
  refine mapM_eq_ok_of_forall₂ ?_
  rw [List.forall₂_map_left_iff, List.forall₂_map_right_iff, List.forall₂_same]
  exact fun vector _ => vectorOfJson_vectorValue vector

/-! ## Items -/

/-- Whether a value is an item with a vector, and with an index if there is one. It may have other
    members as well. -/
def IsItem (vector : List Number) (index : Option Value) (item : Value) : Prop :=
  ∃ members, item = .object members ∧ lastMember? "embedding" members = some (vectorValue vector) ∧
    lastMember? "index" members = index

/-- Where an item stands: by its index, if this is a natural number, or else by its position. -/
def placeOf (position : Nat) : Option Value → Nat
  | some (.number (.whole (.ofNat index))) => index
  | _ => position

theorem placeOf_eq (position : Nat) (index : Option Value) :
    (index.bind naturalOfJson?).getD position = placeOf position index := by
  cases index with
  | none => rfl
  | some value =>
    cases value with
    | number n =>
      cases n with
      | whole k => cases k <;> simp [naturalOfJson?, placeOf]
      | double x => rfl
      | single x => rfl
    | _ => rfl

/-- The vector of an item, with where it stands and its position. -/
structure Placed where
  place : Nat
  position : Nat
  vector : List Float32

/-- Whether an item stands before another one, or at the same place and has the smaller position. -/
def Placed.Before (p q : Placed) : Prop :=
  p.place < q.place ∨ p.place = q.place ∧ p.position < q.position

/-- The vectors of items, given as vectors with their indices. -/
def placedItems (entries : List (List Number × Option Value)) : List Placed :=
  entries.zipIdx.map fun entry => ⟨placeOf entry.2 entry.1.2, entry.2, narrowed entry.1.1⟩

theorem map_vector_placedItems (entries : List (List Number × Option Value)) :
    (placedItems entries).map (·.vector) = entries.map (narrowed ∘ Prod.fst) := by
  rw [placedItems, List.map_map]
  conv_rhs => rw [← List.zipIdx_map_fst 0 entries, List.map_map]
  rfl

/-- Whether an item stands no further than another one. -/
def Placed.upTo (p q : Placed) : Bool := p.place ≤ q.place

theorem Placed.upTo_trans (p q r : Placed) (hpq : p.upTo q) (hqr : q.upTo r) : p.upTo r := by
  simp only [upTo, decide_eq_true_eq] at *
  exact Nat.le_trans hpq hqr

theorem Placed.upTo_total (p q : Placed) : p.upTo q || q.upTo p := by
  simpa [upTo] using Nat.le_total p.place q.place

/-- Sorts items by where they stand. -/
def sortPlaced (items : List Placed) : List Placed :=
  items.mergeSort Placed.upTo

variable {entries : List (List Number × Option Value)} {items : List Value}

/-- Items that correspond one by one do so together with their positions. -/
theorem forall₂_zipIdx {α β : Type} {r : α → β → Prop} {xs : List α} {ys : List β}
    (h : List.Forall₂ r xs ys) (start : Nat) :
    List.Forall₂ (fun x y => r x.1 y.1 ∧ x.2 = y.2) (xs.zipIdx start) (ys.zipIdx start) := by
  induction h generalizing start with
  | nil => exact .nil
  | cons hfirst _ ih => exact .cons ⟨hfirst, rfl⟩ (ih _)

theorem itemsOfJson_eq_sortPlaced
    (h : List.Forall₂ (fun item entry => IsItem entry.1 entry.2 item) items entries) :
    itemsOfJson items = .ok ((sortPlaced (placedItems entries)).map (·.vector)) := by
  have hmap : (items.zipIdx.mapM fun entry => itemOfJson entry.2 entry.1) =
      .ok ((placedItems entries).map fun p => (p.place, p.vector)) := by
    refine mapM_eq_ok_of_forall₂ ?_
    rw [placedItems, List.map_map, List.forall₂_map_right_iff]
    refine (forall₂_zipIdx h 0).imp ?_
    rintro ⟨item, i⟩ ⟨entry, j⟩ ⟨⟨members, rfl, hvector, hindex⟩, rfl⟩
    simp only [itemOfJson, hvector, hindex, vectorOfJson_vectorValue, placeOf_eq]
    rfl
  have hsort := List.map_mergeSort (r := Placed.upTo)
    (s := fun p q : Nat × List Float32 => decide (p.1 ≤ q.1))
    (f := fun p => (p.place, p.vector)) (l := placedItems entries) fun _ _ _ _ => rfl
  rw [itemsOfJson, hmap, Except.map, ← hsort, List.map_map]
  rfl

theorem pairwise_sortPlaced (entries : List (List Number × Option Value)) :
    (sortPlaced (placedItems entries)).Pairwise Placed.Before := by
  have hposition : ∀ i (p : Placed), (placedItems entries)[i]? = some p → p.position = i := by
    intro i p hp
    simp only [placedItems, List.getElem?_map, List.getElem?_zipIdx, Option.map_map,
      Option.map_eq_some_iff] at hp
    obtain ⟨entry, -, rfl⟩ := hp
    simp
  have hsorted := pairwise_mergeSort_position Placed.upTo_trans Placed.upTo_total hposition
  refine hsorted.imp fun {p q} h => ?_
  simp only [Placed.upTo, decide_eq_true_eq] at h
  rcases Nat.lt_or_eq_of_le h.1 with hlt | heq
  · exact .inl hlt
  · exact .inr ⟨heq, h.2 (Nat.le_of_eq heq.symm)⟩

/-- Items that are numbered from zero on are sorted by their numbers. -/
theorem map_vector_sortPlaced {items : List Placed} {vectors : List (List Float32)}
    (h : (items.map fun p => (p.vector, p.place)).Perm vectors.zipIdx) :
    (sortPlaced items).map (·.vector) = vectors := by
  have hperm : ((sortPlaced items).map fun p => (p.vector, p.place)).Perm vectors.zipIdx :=
    ((List.mergeSort_perm _ _).map _).trans h
  have hitems : ((sortPlaced items).map fun p => (p.vector, p.place)).Pairwise
      fun a b => a.2 ≤ b.2 := by
    rw [List.pairwise_map]
    exact (List.pairwise_mergeSort Placed.upTo_trans Placed.upTo_total items).imp of_decide_eq_true
  have hvectors : vectors.zipIdx.Pairwise fun a b => a.2 ≤ b.2 := by
    rw [← List.pairwise_map (f := Prod.snd), List.zipIdx_map_snd]
    exact List.pairwise_le_range'
  have hunique : ∀ a b, a ∈ (sortPlaced items).map (fun p => (p.vector, p.place)) →
      b ∈ vectors.zipIdx → a.2 ≤ b.2 → b.2 ≤ a.2 → a = b := by
    rintro ⟨v, i⟩ ⟨w, j⟩ ha hb hij hji
    have hi := List.mk_mem_zipIdx_iff_getElem?.1 (hperm.mem_iff.1 ha)
    have hj := List.mk_mem_zipIdx_iff_getElem?.1 hb
    obtain rfl : i = j := Nat.le_antisymm hij hji
    rw [hi, Option.some.injEq] at hj
    rw [hj]
  have heq := congrArg (List.map Prod.fst) (hperm.eq_of_pairwise hunique hitems hvectors)
  rwa [List.map_map, List.zipIdx_map_fst] at heq

/-! ## Responses -/

theorem responseVectors_data {members : List (String × Value)}
    (hembeddings : lastMember? "embeddings" members = none)
    (hdata : lastMember? "data" members = some (.array items)) :
    responseVectors (.object members) = itemsOfJson items := by
  simp only [responseVectors, hembeddings, hdata]

/-- Items numbered from zero on give the vectors in the order of the numbers. -/
theorem itemsOfJson_of_numbered {vectors : List (List Number)} {entries : List (List Number × Nat)}
    (hentries : entries.Perm vectors.zipIdx)
    (hitems : List.Forall₂ (fun item e => IsItem e.1 (some (.number (.whole e.2))) item)
      items entries) :
    itemsOfJson items = .ok (vectors.map narrowed) := by
  have hplaces : ((placedItems (entries.map fun e => (e.1, some (.number (.whole e.2))))).map
      fun p => (p.vector, p.place)) = entries.map (Prod.map narrowed id) := by
    rw [placedItems, List.zipIdx_map, List.map_map, List.map_map]
    conv_rhs => rw [← List.zipIdx_map_fst 0 entries, List.map_map]
    rfl
  have hitems' : List.Forall₂ (fun item e => IsItem e.1 e.2 item) items
      (entries.map fun e => (e.1, some (.number (.whole e.2)))) :=
    List.forall₂_map_right_iff.2 hitems
  rw [itemsOfJson_eq_sortPlaced hitems', map_vector_sortPlaced]
  rw [hplaces, List.zipIdx_map]
  exact hentries.map _

/-- Items without numbers give the vectors in their order. -/
theorem itemsOfJson_of_unnumbered {vectors : List (List Number)}
    (hitems : List.Forall₂ (fun item vector => IsItem vector none item) items vectors) :
    itemsOfJson items = .ok (vectors.map narrowed) := by
  have hplaces : ((placedItems (vectors.map fun vector => (vector, none))).map
      fun p => (p.vector, p.place)) = (vectors.map narrowed).zipIdx := by
    rw [placedItems, List.zipIdx_map, List.zipIdx_map, List.map_map, List.map_map]
    rfl
  have hitems' : List.Forall₂ (fun item e => IsItem e.1 e.2 item) items
      (vectors.map fun vector => (vector, none)) := List.forall₂_map_right_iff.2 hitems
  rw [itemsOfJson_eq_sortPlaced hitems', map_vector_sortPlaced]
  rw [hplaces]

/-- The vectors of a response come out in their order from a list of them, from such a list under
    `embeddings`, from items under `data` that are numbered from zero on in any order, and from
    items that are not numbered. Other members make no difference. Whatever indices the items have,
    the vectors come out in the order of where the items stand, and all of them do. -/
theorem responseVectors_shapes (vectors : List (List Number)) :
    responseVectors (.array (vectors.map vectorValue)) = .ok (vectors.map narrowed) ∧
      (∀ members, lastMember? "embeddings" members = some (.array (vectors.map vectorValue)) →
        responseVectors (.object members) = .ok (vectors.map narrowed)) ∧
      ∀ members items, lastMember? "embeddings" members = none →
        lastMember? "data" members = some (.array items) →
        (∀ entries : List (List Number × Nat), entries.Perm vectors.zipIdx →
          List.Forall₂ (fun item e => IsItem e.1 (some (.number (.whole e.2))) item) items entries →
          responseVectors (.object members) = .ok (vectors.map narrowed)) ∧
        (List.Forall₂ (fun item vector => IsItem vector none item) items vectors →
          responseVectors (.object members) = .ok (vectors.map narrowed)) ∧
        ∀ indices : List (Option Value), indices.length = vectors.length →
          List.Forall₂ (fun item e => IsItem e.1 e.2 item) items (vectors.zip indices) →
          ∃ order : List Placed, order.Pairwise Placed.Before ∧
            order.Perm (placedItems (vectors.zip indices)) ∧
            responseVectors (.object members) = .ok (order.map (·.vector)) ∧
            (order.map (·.vector)).Perm (vectors.map narrowed) := by
  refine ⟨vectorsOfJson_vectorValues vectors, fun members hembeddings => ?_,
    fun members items hembeddings hdata => ?_⟩
  · simp only [responseVectors, hembeddings]
    exact vectorsOfJson_vectorValues vectors
  · rw [responseVectors_data hembeddings hdata]
    refine ⟨fun entries => itemsOfJson_of_numbered, itemsOfJson_of_unnumbered,
      fun indices hindices hitems => ?_⟩
    have hperm := List.mergeSort_perm (placedItems (vectors.zip indices)) Placed.upTo
    refine ⟨_, pairwise_sortPlaced _, hperm, itemsOfJson_eq_sortPlaced hitems, ?_⟩
    have hvectors := hperm.map (·.vector)
    rwa [map_vector_placedItems, ← List.map_map, List.map_fst_zip (Nat.le_of_eq hindices.symm)]
      at hvectors

/-- Two vectors under `embeddings`, as items in the opposite order, and as items without indices;
    and items of which the first has an index, the second a negative one and the third none. -/
theorem responseVectors_half_and_two :
    let half := vectorValue [.double 0.5]
    let two := vectorValue [.whole 2]
    let listed := [("embeddings", Value.array [half, two]), ("model", .string "m")]
    let swapped := [("data", Value.array
      [ .object [("index", .number (.whole 1)), ("embedding", two), ("object", .string "e")],
        .object [("embedding", half), ("index", .number (.whole 0))] ])]
    let unnumbered := [("data", Value.array
      [.object [("embedding", half)], .object [("embedding", two), ("object", .string "e")]])]
    let mixed := [("data", Value.array
      [ .object [("embedding", half), ("index", .number (.whole 2))],
        .object [("embedding", two), ("index", .number (.whole (-1)))],
        .object [("embedding", half)] ])]
    responseVectors (.object listed) = .ok [[0.5], [2]] ∧
      responseVectors (.object swapped) = .ok [[0.5], [2]] ∧
      responseVectors (.object unnumbered) = .ok [[0.5], [2]] ∧
      ∃ order : List Placed, order.Pairwise Placed.Before ∧
        order.Perm [⟨2, 0, [0.5]⟩, ⟨1, 1, [2]⟩, ⟨2, 2, [0.5]⟩] ∧
        responseVectors (.object mixed) = .ok (order.map (·.vector)) := by
  intro half two listed swapped unnumbered mixed
  have hhalf : narrowed [.double 0.5] = [0.5] := by decide +kernel
  have htwo : narrowed [.whole 2] = [2] := by decide +kernel
  have hnarrowed : [[.double 0.5], [.whole 2]].map narrowed = [[0.5], [2]] := by
    rw [List.map_cons, List.map_cons, List.map_nil, hhalf, htwo]
  have hshapes := responseVectors_shapes [[.double 0.5], [.whole 2]]
  rw [hnarrowed] at hshapes
  refine ⟨hshapes.2.1 listed rfl, ?_, ?_, ?_⟩
  · have hswap : List.Perm [([Number.whole 2], 1), ([.double 0.5], 0)]
        [[.double 0.5], [.whole 2]].zipIdx := .swap _ _ _
    exact (hshapes.2.2 swapped _ rfl rfl).1 _ hswap
      (.cons ⟨_, rfl, rfl, rfl⟩ (.cons ⟨_, rfl, rfl, rfl⟩ .nil))
  · exact (hshapes.2.2 unnumbered _ rfl rfl).2.1
      (.cons ⟨_, rfl, rfl, rfl⟩ (.cons ⟨_, rfl, rfl, rfl⟩ .nil))
  · have hshapes := responseVectors_shapes [[.double 0.5], [.whole 2], [.double 0.5]]
    obtain ⟨order, hbefore, hperm, hvectors, -⟩ := (hshapes.2.2 mixed _ rfl rfl).2.2
      [some (.number (.whole 2)), some (.number (.whole (-1))), none] rfl
      (.cons ⟨_, rfl, rfl, rfl⟩ (.cons ⟨_, rfl, rfl, rfl⟩ (.cons ⟨_, rfl, rfl, rfl⟩ .nil)))
    rw [← hhalf, ← htwo]
    exact ⟨order, hbefore, hperm, hvectors⟩

end SchemaMatch

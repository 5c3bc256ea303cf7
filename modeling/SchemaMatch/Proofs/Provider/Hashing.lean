import Mathlib.Algebra.BigOperators.Group.List.Basic
import SchemaMatch.Proofs.Embedding
import SchemaMatch.Proofs.Precision.Whole
import SchemaMatch.Proofs.Text.Words
import SchemaMatch.Provider.Hashing

/-!
# Bags of words

A component of the sums depends on what is added to it alone, in the order in which it is added
(`getElem?_foldl_add`), and a word adds to it a two if it chooses it itself, and then a one for each
of its trigrams that does (`addedTo_contributions`). The ones do not differ, and so the order of the
trigrams makes no difference, even where sums are rounded: `embed_any_order`.

Where the sums are small enough to be exact, not even the order of the words does. Each component is
then twice the number of words that choose it, and the number of times that a word has a trigram
that does: `counts_bag_of_words`.
-/

namespace SchemaMatch.HashEmbedder

variable (e : HashEmbedder)

theorem bucket_lt (token : String) : e.bucket token < e.dimension.toNat := by
  have hpos : 0 < e.dimension.toNat := by
    rw [Nat.pos_iff_ne_zero, ne_eq, ← UInt64.toNat_zero, UInt64.toNat_inj]
    exact e.dimension_ne_zero
  rw [bucket, UInt64.toNat_mod]
  exact Nat.mod_lt _ hpos

/-! ## Components -/

/-- What some contributions add to a component, one after the other. -/
def addedTo (i : Nat) (contributions : List (Nat × Float32)) : List Float32 :=
  (contributions.filter (·.1 = i)).map (·.2)

theorem addedTo_cons (i : Nat) (first : Nat × Float32) (later : List (Nat × Float32)) :
    addedTo i (first :: later) = (if first.1 = i then [first.2] else []) ++ addedTo i later := by
  rw [addedTo, List.filter_cons]
  by_cases h : first.1 = i <;> simp [h, addedTo]

theorem size_foldl_add (contributions : List (Nat × Float32)) (components : Array Float32) :
    (contributions.foldl add components).size = components.size := by
  induction contributions generalizing components with
  | nil => rfl
  | cons first later ih => rw [List.foldl_cons, ih, add, Array.size_modify]

/-- A component takes what is added to it, and nothing else. -/
theorem getElem?_foldl_add (contributions : List (Nat × Float32)) (components : Array Float32)
    (i : Nat) :
    (contributions.foldl add components)[i]? =
      components[i]?.map fun x => (addedTo i contributions).foldl (· + ·) x := by
  induction contributions generalizing components with
  | nil => exact Option.map_id'.symm
  | cons first later ih =>
    rw [List.foldl_cons, ih, add, Array.getElem?_modify, addedTo_cons]
    by_cases h : first.1 = i
    · rw [if_pos h, if_pos h, Option.map_map]
      rfl
    · rw [if_neg h, if_neg h]
      rfl

variable (entries : List (String × List String))

theorem length_sums : (e.sums entries).length = e.dimension.toNat := by
  rw [sums, Array.length_toList, size_foldl_add, Array.size_replicate]

theorem getElem?_sums {i : Nat} (hi : i < e.dimension.toNat) :
    (e.sums entries)[i]? = some ((entries.flatMap fun entry =>
      addedTo i (e.contributions entry.1 entry.2)).foldl (· + ·) 0) := by
  have hzero : (Array.replicate e.dimension.toNat (0 : Float32))[i]? = some 0 :=
    Array.getElem?_replicate.trans (if_pos hi)
  rw [sums, Array.getElem?_toList, getElem?_foldl_add, hzero, addedTo, List.filter_flatMap,
    List.map_flatMap]
  rfl

/-- Sums that agree in every component are the same. -/
theorem sums_eq_of_forall {entries entries' : List (String × List String)}
    (h : ∀ i < e.dimension.toNat, (e.sums entries)[i]? = (e.sums entries')[i]?) :
    e.sums entries = e.sums entries' := by
  refine List.ext_getElem? fun i => ?_
  by_cases hi : i < e.dimension.toNat
  · exact h i hi
  · rw [List.getElem?_eq_none (by rw [length_sums]; omega),
      List.getElem?_eq_none (by rw [length_sums]; omega)]

/-! ## Amounts -/

/-- What a word with some trigrams adds to a component: two for the word itself, and one for each
    trigram. -/
def amounts (i : Nat) (word : String) (trigrams : List String) : List ℕ :=
  (if e.bucket word = i then [2] else []) ++
    List.replicate (trigrams.countP fun t => e.bucket t = i) 1

theorem addedTo_contributions (i : Nat) (word : String) (trigrams : List String) :
    addedTo i (e.contributions word trigrams) =
      (e.amounts i word trigrams).map fun n : ℕ => singleOfInt n := by
  have hone : singleOfInt (1 : ℕ) = 1 := by decide
  have htwo : singleOfInt (2 : ℕ) = 2 := by decide
  have htrigrams : addedTo i (trigrams.map fun t => (e.bucket t, 1)) =
      List.replicate (trigrams.countP fun t => e.bucket t = i) 1 := by
    rw [addedTo, List.filter_map, List.map_map, List.countP_eq_length_filter]
    exact List.map_const
  rw [contributions, addedTo_cons, htrigrams, amounts, List.map_append, List.map_replicate, hone]
  split
  · rw [List.map_singleton, htwo]
  · rfl

theorem amounts_perm (i : Nat) (word : String) {trigrams order : List String}
    (h : order.Perm trigrams) : e.amounts i word order = e.amounts i word trigrams := by
  rw [amounts, amounts, h.countP_eq]

/-! ## Orders of trigrams -/

/-- Whether entries are some words, each with its trigrams in some order. -/
def Enumerates (words : List String) (entries : List (String × List String)) : Prop :=
  List.Forall₂ (fun word entry => entry.1 = word ∧ entry.2.Nodup ∧
    ∀ t, t ∈ entry.2 ↔ Text.IsTrigram word t) words entries

/-- The embedding of a text whose words are given with their trigrams. -/
def embedEntries (entries : List (String × List String)) : Embedding :=
  Embedding.normalized ⟨e.sums entries⟩

variable {e entries} {words : List String} {text : String}

/-- Whatever the orders of the trigrams, a component has the same added to it. -/
theorem flatMap_addedTo_of_enumerates (h : Enumerates words entries) (i : Nat) :
    (entries.flatMap fun entry => addedTo i (e.contributions entry.1 entry.2)) =
      (words.flatMap fun word => e.amounts i word (Text.trigrams word)).map
        fun n : ℕ => singleOfInt n := by
  rw [List.map_flatMap]
  induction h with
  | nil => rfl
  | @cons word entry words entries hfirst _ ih =>
    obtain ⟨rfl, hnodup, hmem⟩ := hfirst
    have hperm : entry.2.Perm (Text.trigrams entry.1) :=
      (List.perm_ext_iff_of_nodup hnodup (Text.nodup_trigrams _)).2 fun t =>
        (hmem t).trans Text.mem_trigrams_iff.symm
    rw [List.flatMap_cons, List.flatMap_cons, ih, addedTo_contributions, e.amounts_perm i _ hperm]

theorem enumerates_trigrams (words : List String) :
    Enumerates words (words.map fun word => (word, Text.trigrams word)) := by
  rw [Enumerates, List.forall₂_map_right_iff, List.forall₂_same]
  exact fun word _ => ⟨rfl, Text.nodup_trigrams word, fun _ => Text.mem_trigrams_iff⟩

theorem sums_of_enumerates (h : Enumerates (Text.words text) entries) :
    e.sums entries = e.counts text := by
  refine e.sums_eq_of_forall fun i hi => ?_
  rw [getElem?_sums _ _ hi, getElem?_sums _ _ hi, flatMap_addedTo_of_enumerates h,
    flatMap_addedTo_of_enumerates (enumerates_trigrams _)]

/-- The embedding of a text does not depend on the order in which the trigrams of each of its words
    come. -/
theorem embed_any_order {entries entries' : List (String × List String)}
    (h : Enumerates (Text.words text) entries) (h' : Enumerates (Text.words text) entries') :
    e.embedEntries entries = e.embedEntries entries' ∧ e.embedEntries entries = e.embed text := by
  rw [embedEntries, embedEntries, sums_of_enumerates h, sums_of_enumerates h']
  exact ⟨rfl, rfl⟩

/-- A text of two words, of which each has its trigrams from the last to the first. -/
theorem embed_any_order_reversed :
    let e : HashEmbedder := ⟨8, by decide⟩
    let forward := [("id", ["  i", " id", "id ", "d  "]), ("x", ["  x", " x ", "x  "])]
    let backward := [("id", ["d  ", "id ", " id", "  i"]), ("x", ["x  ", " x ", "  x"])]
    Enumerates (Text.words "ID of X") forward ∧ Enumerates (Text.words "ID of X") backward ∧
      e.embedEntries forward = e.embedEntries backward ∧
      e.embedEntries forward = e.embed "ID of X" := by
  intro e forward backward
  have hwords : Text.words "ID of X" = ["id", "x"] := by decide +kernel
  have htrigrams : ["id", "x"].map (fun word => (word, Text.trigrams word)) = forward := by
    decide +kernel
  have hforward : Enumerates (Text.words "ID of X") forward := by
    rw [hwords, ← htrigrams]
    exact enumerates_trigrams _
  have hbackward : Enumerates (Text.words "ID of X") backward := by
    rw [hwords]
    refine .cons ⟨rfl, by decide, fun t => ?_⟩ (.cons ⟨rfl, by decide, fun t => ?_⟩ .nil)
    · have hid : Text.trigrams "id" = ["d  ", "id ", " id", "  i"].reverse := by decide +kernel
      rw [← Text.mem_trigrams_iff, hid, List.mem_reverse]
    · have hx : Text.trigrams "x" = ["x  ", " x ", "  x"].reverse := by decide +kernel
      rw [← Text.mem_trigrams_iff, hx, List.mem_reverse]
  exact ⟨hforward, hbackward, embed_any_order hforward hbackward⟩

/-! ## Exact sums -/

variable (e)

/-- Twice the number of words that choose a component, and the number of trigrams that do, those of
    each word counted once. -/
def total (words : List String) (i : Nat) : ℕ :=
  2 * (words.countP fun word => e.bucket word = i) +
    (words.map fun word => (Text.trigrams word).countP fun t => e.bucket t = i).sum

theorem sum_amounts (words : List String) (i : Nat) :
    (words.flatMap fun word => e.amounts i word (Text.trigrams word)).sum = e.total words i := by
  induction words with
  | nil => rfl
  | cons word later ih =>
    have hfirst : (e.amounts i word (Text.trigrams word)).sum =
        2 * (if e.bucket word = i then 1 else 0) +
          (Text.trigrams word).countP fun t => e.bucket t = i := by
      rw [amounts, List.sum_append, List.sum_replicate, smul_eq_mul, mul_one]
      split <;> rfl
    rw [List.flatMap_cons, List.sum_append, ih, hfirst, total, total, List.countP_cons,
      List.map_cons, List.sum_cons]
    simp only [decide_eq_true_eq]
    omega

theorem total_perm {words words' : List String} (h : words.Perm words') (i : Nat) :
    e.total words i = e.total words' i := by
  rw [total, total, h.countP_eq, (h.map _).sum_eq]

variable {e}

theorem getElem?_counts {i : Nat} (hi : i < e.dimension.toNat)
    (h : e.total (Text.words text) i ≤ 2 ^ 24) :
    (e.counts text)[i]? = some (singleOfInt (e.total (Text.words text) i)) := by
  have hzero : singleOfInt (0 : ℕ) = 0 := rfl
  rw [counts, getElem?_sums _ _ hi, flatMap_addedTo_of_enumerates (enumerates_trigrams _), ← hzero,
    foldl_singleOfInt (by rwa [sum_amounts, Nat.zero_add]), sum_amounts, Nat.zero_add]

/-- Texts with the same words in any order have the same sums. -/
theorem counts_of_perm {other : String} (hwords : (Text.words other).Perm (Text.words text))
    (h : ∀ i < e.dimension.toNat, e.total (Text.words text) i ≤ 2 ^ 24) :
    e.counts other = e.counts text := by
  refine e.sums_eq_of_forall fun i hi => ?_
  have htotal := e.total_perm hwords i
  have hother : e.total (Text.words other) i ≤ 2 ^ 24 := by
    rw [htotal]
    exact h i hi
  rw [← counts, ← counts, getElem?_counts hi (h i hi), getElem?_counts hi hother, htotal]

/-- The sums are zero if there is no word. -/
theorem isZero_counts_iff (h : ∀ i < e.dimension.toNat, e.total (Text.words text) i ≤ 2 ^ 24) :
    (⟨e.counts text⟩ : Embedding).isZero = true ↔ Text.words text = [] := by
  have hall : ∀ v : List Float32, (⟨v⟩ : Embedding).isZero = v.all (· == 0) := fun _ => rfl
  rw [hall, List.all_eq_true]
  constructor
  · intro hzero
    rw [List.eq_nil_iff_forall_not_mem]
    intro word hword
    -- A word adds to the component that it chooses itself.
    have hi := e.bucket_lt word
    have hbeq := hzero _ (List.mem_of_getElem? (getElem?_counts hi (h _ hi)))
    rw [singleOfInt_beq_zero_iff (h _ hi)] at hbeq
    have hpos : 0 < (Text.words text).countP fun w => e.bucket w = e.bucket word :=
      List.countP_pos_iff.2 ⟨word, hword, decide_eq_true rfl⟩
    rw [total] at hbeq
    omega
  · intro hnil x hx
    obtain ⟨i, hx⟩ := List.mem_iff_getElem?.1 hx
    have hi : i < e.dimension.toNat := by
      rw [← length_sums e, ← counts]
      exact (List.getElem?_eq_some_iff.1 hx).1
    rw [getElem?_counts hi (h i hi), Option.some.injEq] at hx
    rw [← hx, singleOfInt_beq_zero_iff (h i hi), hnil]
    rfl

/-- The sums of a text, before they are brought to length one: each word and each trigram chooses
    one of the components, and as long as no component comes to more than `2 ^ 24`, it is twice the
    number of words that choose it, and the number of times that a word has a trigram that does. So
    far, texts with the same words in any order have one embedding, and only those without any word
    have a zero. -/
theorem counts_bag_of_words (e : HashEmbedder) (text : String) :
    (e.counts text).length = e.dimension.toNat ∧
      (∀ token, e.bucket token < e.dimension.toNat) ∧
      (∀ word, (Text.trigrams word).Nodup ∧
        ∀ t, t ∈ Text.trigrams word ↔ Text.IsTrigram word t) ∧
      ((∀ i < e.dimension.toNat, e.total (Text.words text) i ≤ 2 ^ 24) →
        (∀ i < e.dimension.toNat, ∃ x, (e.counts text)[i]? = some x ∧ x.isFinite = true ∧
          Embedding.component x = e.total (Text.words text) i) ∧
        (∀ other, (Text.words other).Perm (Text.words text) →
          e.counts other = e.counts text ∧ e.embed other = e.embed text) ∧
        ((⟨e.counts text⟩ : Embedding).isZero = true ↔ Text.words text = [])) := by
  refine ⟨e.length_sums _, e.bucket_lt,
    fun word => ⟨Text.nodup_trigrams word, fun _ => Text.mem_trigrams_iff⟩, fun h => ⟨?_, ?_, ?_⟩⟩
  · intro i hi
    obtain ⟨hfinite, hvalue⟩ := value_singleOfInt (h i hi)
    exact ⟨_, getElem?_counts hi (h i hi), hfinite, hvalue⟩
  · intro other hwords
    have hcounts := counts_of_perm hwords h
    exact ⟨hcounts, by rw [embed, embed, hcounts]⟩
  · exact isZero_counts_iff h

/-- Two texts with the same two words, among eight components. -/
theorem counts_bag_of_words_email :
    let e : HashEmbedder := ⟨8, by decide⟩
    (Text.words "Email, user!").Perm (Text.words "user email") ∧
      (∀ i < 8, e.total (Text.words "user email") i ≤ 2 ^ 24) ∧
      e.counts "Email, user!" = e.counts "user email" ∧
      e.embed "Email, user!" = e.embed "user email" ∧
      (∃ x, (e.counts "user email")[6]? = some x ∧ Embedding.component x = 3) ∧
      (⟨e.counts "user email"⟩ : Embedding).isZero = false := by
  intro e
  have hwords : Text.words "user email" = ["user", "email"] := by decide +kernel
  have hother : Text.words "Email, user!" = ["email", "user"] := by decide +kernel
  have hperm : (Text.words "Email, user!").Perm (Text.words "user email") := by
    rw [hwords, hother]
    exact .swap _ _ _
  have htotals :
      (List.range 8).map (e.total (Text.words "user email")) = [2, 2, 1, 2, 2, 3, 3, 2] := by
    rw [hwords]
    decide +kernel
  have hbound : ∀ i < 8, e.total (Text.words "user email") i ≤ 2 ^ 24 := by
    intro i hi
    have hmem := List.mem_map_of_mem (f := e.total (Text.words "user email")) (List.mem_range.2 hi)
    rw [htotals] at hmem
    have hle : ∀ n ∈ [2, 2, 1, 2, 2, 3, 3, 2], n ≤ 2 ^ 24 := by decide
    exact hle _ hmem
  obtain ⟨-, -, -, h⟩ := counts_bag_of_words e "user email"
  obtain ⟨hexact, hsame, hzero⟩ := h hbound
  obtain ⟨x, hx, -, hvalue⟩ := hexact 6 (by decide)
  have htotal : e.total (Text.words "user email") 6 = 3 := by
    rw [hwords]
    decide +kernel
  refine ⟨hperm, hbound, (hsame _ hperm).1, (hsame _ hperm).2, ⟨x, hx, ?_⟩, ?_⟩
  · rw [hvalue, htotal]
    rfl
  · rw [Bool.eq_false_iff, ne_eq, hzero, hwords]
    exact List.cons_ne_nil _ _

end SchemaMatch.HashEmbedder

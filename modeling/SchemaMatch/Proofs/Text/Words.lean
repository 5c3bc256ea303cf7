import Mathlib.Data.List.Infix
import SchemaMatch.Proofs.Table
import SchemaMatch.Text.Words

/-!
# The words of a text

Neither of the two steps in which the words of a text are found looks across a space. A capital
sigma asks for the nearest characters around it that are not case-ignorable, and stops at a space,
which has no case (`startsCased_append_space`), and a run of letters and digits ends there. So the
words of two texts with a space between them are those of the one, and then those of the other.

The runs are told by their places: a *span* of a text is a maximal run of a kind of characters if it
is not empty, has only characters of the kind, and is preceded and followed by none
(`IsMaximalRun`). Two such spans have something between them (`IsMaximalRun.eq_or_lt`), and what is
found, from left to right, is each of them once: `exists_spans_runs`.

The trigrams of a word are its parts of three characters, each of them once: `mem_trigrams_iff` and
`nodup_trigrams`.
-/

namespace SchemaMatch.Text

/-! ## Lowercase texts -/

/-- Beyond a space, nothing makes a difference to whether a capital sigma ends a word. -/
theorem startsCased_append_space (near far : List Char) :
    startsCased (near ++ ' ' :: far) = startsCased near := by
  induction near with
  | nil => rfl
  | cons c near ih => simp only [List.cons_append, startsCased, ih]

theorem lowercaseAfter_append_space_left (near far text : List Char) :
    lowercaseAfter (near ++ ' ' :: far) text = lowercaseAfter near text := by
  induction text generalizing near with
  | nil => rfl
  | cons c later ih =>
    have ih := ih (c :: near)
    rw [List.cons_append] at ih
    simp only [lowercaseAfter, lowercaseAmong, startsCased_append_space, ih]

theorem lowercaseAfter_append_space (before a b : List Char) :
    lowercaseAfter before (a ++ ' ' :: b) = lowercaseAfter before a ++ ' ' :: lowercase b := by
  induction a generalizing before with
  | nil =>
    have hspace : lowercaseAmong before ' ' b = [' '] := rfl
    have hbehind := lowercaseAfter_append_space_left [] before b
    calc lowercaseAfter before (' ' :: b)
        = lowercaseAmong before ' ' b ++ lowercaseAfter ([] ++ ' ' :: before) b := rfl
      _ = ' ' :: lowercase b := by rw [hspace, hbehind]; rfl
  | cons c later ih =>
    simp only [List.cons_append, lowercaseAfter, lowercaseAmong, startsCased_append_space, ih,
      List.append_assoc]

/-- Two texts with a space between them are put into lowercase one by one. -/
theorem lowercase_append_space (a b : List Char) :
    lowercase (a ++ ' ' :: b) = lowercase a ++ ' ' :: lowercase b :=
  lowercaseAfter_append_space [] a b

/-! ## Spans -/

/-- A part of a text, from one place up to another one. -/
structure Span where
  start : Nat
  stop : Nat

/-- The characters of a span. -/
def Span.chars (text : List Char) (s : Span) : List Char :=
  text.extract s.start s.stop

/-- Whether a text has a character of a kind at a place. -/
def hasAt (kind : Char → Bool) (text : List Char) (place : Nat) : Bool :=
  text[place]?.any kind

/-- Whether a span is one of the longest parts of a text that have only characters of a kind. -/
structure IsMaximalRun (kind : Char → Bool) (text : List Char) (s : Span) : Prop where
  start_lt : s.start < s.stop
  inside : ∀ i, s.start ≤ i → i < s.stop → hasAt kind text i = true
  before : ∀ i, i + 1 = s.start → hasAt kind text i = false
  after : hasAt kind text s.stop = false

variable {kind : Char → Bool} {text : List Char} {s t : Span}

theorem lt_length_of_hasAt {place : Nat} (h : hasAt kind text place = true) :
    place < text.length := by
  by_contra hle
  rw [hasAt, List.getElem?_eq_none (Nat.not_lt.1 hle)] at h
  cases h

namespace IsMaximalRun

theorem hasAt_start (hs : IsMaximalRun kind text s) : hasAt kind text s.start = true :=
  hs.inside _ (Nat.le_refl _) hs.start_lt

/-- Of two maximal runs, one ends before the other one begins, and there is something between
    them. -/
theorem eq_or_lt (hs : IsMaximalRun kind text s) (ht : IsMaximalRun kind text t)
    (h : s.start ≤ t.start) : s = t ∨ s.stop < t.start := by
  by_cases hlt : s.stop < t.start
  · exact .inr hlt
  -- A run neither ends nor begins inside of another one.
  have hsplit : ∀ {p q : Span}, IsMaximalRun kind text p → IsMaximalRun kind text q →
      ¬(q.start ≤ p.stop ∧ p.stop < q.stop) := by
    rintro p q hp hq ⟨hle, hlt⟩
    exact Bool.false_ne_true (hp.after.symm.trans (hq.inside _ hle hlt))
  have hstart : s.start = t.start := by
    by_contra hne
    have hinside : t.start - 1 < s.stop := by
      have := hsplit hs ht
      have := ht.start_lt
      omega
    have hbefore := ht.before (t.start - 1) (by omega)
    exact Bool.false_ne_true (hbefore.symm.trans (hs.inside _ (by omega) hinside))
  have hstop : s.stop = t.stop := by
    have := hsplit hs ht
    have := hsplit ht hs
    have := hs.start_lt
    have := ht.start_lt
    omega
  cases s
  cases t
  exact .inl (congrArg₂ Span.mk hstart hstop)

/-- From the beginning of a maximal run on, there is this one and those behind it. -/
theorem from_start_iff (hs : IsMaximalRun kind text s) :
    s.start ≤ t.start ∧ IsMaximalRun kind text t ↔
      t = s ∨ s.stop + 1 ≤ t.start ∧ IsMaximalRun kind text t := by
  constructor
  · rintro ⟨hle, ht⟩
    rcases hs.eq_or_lt ht hle with rfl | hlt
    · exact .inl rfl
    · exact .inr ⟨hlt, ht⟩
  · rintro (rfl | ⟨hlt, ht⟩)
    · exact ⟨Nat.le_refl _, hs⟩
    · exact ⟨by have := hs.start_lt; omega, ht⟩

/-- No maximal run begins where there is no character of the kind. -/
theorem from_gap_iff {place : Nat} (hgap : hasAt kind text place = false) :
    place ≤ t.start ∧ IsMaximalRun kind text t ↔
      place + 1 ≤ t.start ∧ IsMaximalRun kind text t := by
  refine and_congr_left fun ht => ⟨fun hle => ?_, Nat.le_of_succ_le⟩
  rcases Nat.lt_or_eq_of_le hle with hlt | rfl
  · exact hlt
  · exact absurd (hgap.symm.trans ht.hasAt_start) Bool.false_ne_true

end IsMaximalRun

/-! ## Runs -/

/-- Whether the characters of a run that is open, the last one first, are those of a text from a
    place up to another one, at which the rest of the text begins. -/
structure IsOpened (kind : Char → Bool) (text : List Char) (s : Span) (opened later : List Char) :
    Prop where
  chars_eq : s.chars text = opened.reverse
  drop_eq : text.drop s.stop = later
  stop_eq : s.stop = s.start + opened.length
  inside : ∀ i, s.start ≤ i → i < s.stop → hasAt kind text i = true
  before : ∀ i, i + 1 = s.start → hasAt kind text i = false

namespace IsOpened

variable {opened later : List Char} {c : Char}

/-- At the beginning of a text, no run is open. -/
theorem nil (kind : Char → Bool) (text : List Char) : IsOpened kind text ⟨0, 0⟩ [] text :=
  ⟨rfl, rfl, rfl, fun i _ hlt => absurd hlt (Nat.not_lt_zero i), fun _ h => nomatch h⟩

theorem getElem?_stop (h : IsOpened kind text s opened later) :
    text[s.stop]? = later.head? := by
  rw [← h.drop_eq, List.head?_drop]

theorem hasAt_stop (h : IsOpened kind text s opened later) :
    hasAt kind text s.stop = later.head?.any kind := by
  rw [hasAt, h.getElem?_stop]

theorem drop_stop_succ (h : IsOpened kind text s opened (c :: later)) :
    text.drop (s.stop + 1) = later := by
  rw [← List.drop_drop, h.drop_eq]
  rfl

/-- A character of the kind belongs to the run that is open. -/
theorem push (h : IsOpened kind text s opened (c :: later)) (hc : kind c = true) :
    IsOpened kind text ⟨s.start, s.stop + 1⟩ (c :: opened) later where
  chars_eq := by
    have hle : s.start ≤ s.stop := h.stop_eq ▸ Nat.le_add_right _ _
    have hlast : (text.drop s.start)[s.stop - s.start]? = some c := by
      rw [List.getElem?_drop, Nat.add_sub_cancel' hle, h.getElem?_stop]
      rfl
    have hchars := h.chars_eq
    rw [Span.chars, List.extract_eq_take_drop] at hchars ⊢
    rw [Nat.sub_add_comm hle, List.take_add_one, hchars, hlast, List.reverse_cons]
    rfl
  drop_eq := h.drop_stop_succ
  stop_eq := by
    rw [h.stop_eq]
    rfl
  inside i hle hlt := by
    rcases Nat.lt_succ_iff_lt_or_eq.1 hlt with hlt | rfl
    · exact h.inside i hle hlt
    · rw [h.hasAt_stop]
      exact hc
  before := h.before

/-- Behind a character that is not of the kind, no run is open. -/
theorem skip (h : IsOpened kind text s opened (c :: later)) (hc : kind c = false) :
    IsOpened kind text ⟨s.stop + 1, s.stop + 1⟩ [] later where
  chars_eq := by
    rw [Span.chars, List.extract_eq_take_drop, Nat.sub_self, List.take_zero]
    rfl
  drop_eq := h.drop_stop_succ
  stop_eq := rfl
  inside i hle hlt := absurd hlt (Nat.not_lt.2 hle)
  before i hi := by
    obtain rfl : i = s.stop := Nat.succ.inj hi
    rw [h.hasAt_stop]
    exact hc

/-- A run that is open and is not continued is a maximal one. -/
theorem isMaximalRun (h : IsOpened kind text s opened later) (hopened : opened ≠ [])
    (hlater : later.head?.any kind = false) : IsMaximalRun kind text s where
  start_lt := by
    have := List.length_pos_iff.2 hopened
    have := h.stop_eq
    omega
  inside := h.inside
  before := h.before
  after := h.hasAt_stop.trans hlater

/-- Behind the end of a text, there is no run. -/
theorem not_isMaximalRun (h : IsOpened kind text s opened []) (hle : s.stop ≤ t.start) :
    ¬IsMaximalRun kind text t := fun ht => by
  have hlength := List.drop_eq_nil_iff.1 h.drop_eq
  have := lt_length_of_hasAt ht.hasAt_start
  omega

end IsOpened

/-- What is found from a place on are the maximal runs that begin there or later. -/
theorem exists_spans_runsFrom {opened later : List Char} (h : IsOpened kind text s opened later) :
    ∃ spans : List Span, spans.Pairwise (fun p q => p.stop < q.start) ∧
      (∀ p, p ∈ spans ↔ s.start ≤ p.start ∧ IsMaximalRun kind text p) ∧
      runsFrom kind opened later = spans.map (Span.chars text) := by
  induction later generalizing s opened with
  | nil =>
    by_cases hopened : opened = []
    · refine ⟨[], .nil, fun p => ?_, by rw [runsFrom, if_pos (List.isEmpty_iff.2 hopened)]; rfl⟩
      have hstop : s.stop = s.start := by rw [h.stop_eq, hopened]; rfl
      simp only [List.not_mem_nil, false_iff, not_and]
      exact fun hle => h.not_isMaximalRun (hstop ▸ hle)
    · have hrun := h.isMaximalRun hopened rfl
      refine ⟨[s], List.pairwise_singleton _ _, fun p => ?_, ?_⟩
      · rw [hrun.from_start_iff, List.mem_singleton]
        exact ⟨.inl, fun hp => hp.resolve_right fun hp =>
          h.not_isMaximalRun (Nat.le_of_succ_le hp.1) hp.2⟩
      · rw [runsFrom, if_neg (mt List.isEmpty_iff.1 hopened), List.map_singleton, h.chars_eq]
  | cons c later ih =>
    rw [runsFrom]
    by_cases hc : kind c = true
    · have hpush := ih (h.push hc)
      rwa [if_pos hc]
    rw [if_neg hc]
    rw [Bool.not_eq_true] at hc
    obtain ⟨spans, hordered, hspans, hruns⟩ := ih (h.skip hc)
    by_cases hopened : opened = []
    · -- Between two runs.
      have hstop : s.stop = s.start := by rw [h.stop_eq, hopened]; rfl
      refine ⟨spans, hordered, fun p => ?_, by rw [if_pos (List.isEmpty_iff.2 hopened), hruns]⟩
      rw [hspans, ← hstop, IsMaximalRun.from_gap_iff (h.hasAt_stop.trans hc)]
    · -- The run that was open ends here.
      have hrun := h.isMaximalRun hopened hc
      refine ⟨s :: spans, List.pairwise_cons.2 ⟨fun p hp => ?_, hordered⟩, fun p => ?_, ?_⟩
      · exact ((hspans p).1 hp).1
      · rw [hrun.from_start_iff, List.mem_cons, hspans]
      · rw [if_neg (mt List.isEmpty_iff.1 hopened), List.map_cons, h.chars_eq, hruns]

/-- The runs of a kind of characters are the maximal ones, from left to right. -/
theorem exists_spans_runs (kind : Char → Bool) (text : List Char) :
    ∃ spans : List Span, spans.Pairwise (fun p q => p.stop < q.start) ∧
      (∀ p, p ∈ spans ↔ IsMaximalRun kind text p) ∧
      runs kind text = spans.map (Span.chars text) := by
  obtain ⟨spans, hordered, hspans, hruns⟩ := exists_spans_runsFrom (.nil kind text)
  refine ⟨spans, hordered, fun p => (hspans p).trans ?_, hruns⟩
  exact and_iff_right (Nat.zero_le _)

/-- A character that is not of the kind separates the runs before it from those behind it. -/
theorem runsFrom_append_cons {c : Char} (hc : kind c = false) (opened a b : List Char) :
    runsFrom kind opened (a ++ c :: b) = runsFrom kind opened a ++ runs kind b := by
  induction a generalizing opened with
  | nil => cases opened <;> simp [runsFrom, runs, hc]
  | cons d later ih =>
    simp only [List.cons_append, runsFrom, ih]
    split
    · rfl
    · split <;> rfl

/-- The characters of a maximal run. -/
theorem IsMaximalRun.chars_spec (hs : IsMaximalRun kind text s) :
    s.chars text ≠ [] ∧ ∀ c ∈ s.chars text, kind c = true := by
  have hchars : ∀ i, (s.chars text)[i]? =
      if i < s.stop - s.start then text[s.start + i]? else none := by
    intro i
    rw [Span.chars, List.extract_eq_take_drop, List.getElem?_take, List.getElem?_drop]
  constructor
  · intro hnil
    have hstart := hchars 0
    have hlt := lt_length_of_hasAt hs.hasAt_start
    rw [hnil, if_pos (Nat.sub_pos_of_lt hs.start_lt), Nat.add_zero,
      List.getElem?_eq_getElem hlt] at hstart
    cases hstart
  · intro c hc
    obtain ⟨i, hi⟩ := List.mem_iff_getElem?.1 hc
    rw [hchars] at hi
    split at hi
    · next hlt =>
      have hinside := hs.inside (s.start + i) (Nat.le_add_right _ _) (by omega)
      rwa [hasAt, hi] at hinside
    · cases hi

/-! ## Words -/

/-- A word is not empty, has letters and digits only, and is not a stop word. -/
theorem spec_of_mem_words {text word : String} (h : word ∈ words text) :
    word ≠ "" ∧ (∀ c ∈ word.toList, isAlphanumeric c = true) ∧ word ∉ stopWords := by
  obtain ⟨hword, hstop⟩ := List.mem_filter.1 h
  obtain ⟨spans, -, hspans, hruns⟩ := exists_spans_runs isAlphanumeric (lowercase text.toList)
  rw [hruns, List.map_map] at hword
  obtain ⟨s, hs, rfl⟩ := List.mem_map.1 hword
  obtain ⟨hne, hkind⟩ := ((hspans s).1 hs).chars_spec
  refine ⟨fun hempty => hne ?_, ?_, of_decide_eq_true hstop⟩
  · rw [← String.toList_ofList (l := s.chars _)]
    exact congrArg String.toList hempty
  · rwa [Function.comp_apply, String.toList_ofList]

theorem words_append_space (a b : String) : words (a ++ " " ++ b) = words a ++ words b := by
  have hspace : isAlphanumeric ' ' = false := rfl
  have hchars : (a ++ " " ++ b).toList = a.toList ++ ' ' :: b.toList := by
    rw [String.toList_append, String.toList_append, List.append_assoc]
    rfl
  have hruns : runs isAlphanumeric (lowercase (a ++ " " ++ b).toList) =
      runs isAlphanumeric (lowercase a.toList) ++ runs isAlphanumeric (lowercase b.toList) := by
    rw [hchars, lowercase_append_space]
    exact runsFrom_append_cons hspace [] _ _
  rw [words, hruns, List.map_append, List.filter_append]
  rfl

/-- The words of a text are the maximal runs of letters and digits of its lowercase form that are
    not stop words, from left to right; and the words of two texts with a space between them are
    those of the one, and then those of the other. -/
theorem words_maximal_runs (text a b : String) :
    (∃ spans : List Span, spans.Pairwise (fun p q => p.stop < q.start) ∧
      (∀ s, s ∈ spans ↔ IsMaximalRun isAlphanumeric (lowercase text.toList) s) ∧
      words text = (spans.map fun s => String.ofList (s.chars (lowercase text.toList))).filter
        (· ∉ stopWords)) ∧
      (∀ word ∈ words text,
        word ≠ "" ∧ (∀ c ∈ word.toList, isAlphanumeric c = true) ∧ word ∉ stopWords) ∧
      words (a ++ " " ++ b) = words a ++ words b := by
  refine ⟨?_, fun word => spec_of_mem_words, words_append_space a b⟩
  obtain ⟨spans, hordered, hspans, hruns⟩ :=
    exists_spans_runs isAlphanumeric (lowercase text.toList)
  refine ⟨spans, hordered, hspans, ?_⟩
  rw [words, hruns, List.map_map]
  rfl

/-- A capital sigma that ends a word does so before a space, whatever follows; and the dot of a
    dotted capital I becomes a character of its own, which separates words. -/
theorem words_maximal_runs_sigma :
    words ("The ΟΔΟΣ" ++ " " ++ "ΣΑİΣ") = ["οδος", "σαi", "ς"] ∧
      "οδος" ∈ words "The ΟΔΟΣ" ∧ "οδος" ≠ "" ∧
      (∀ c ∈ "οδος".toList, isAlphanumeric c = true) ∧ "οδος" ∉ stopWords := by
  have hfirst : words "The ΟΔΟΣ" = ["οδος"] := by decide +kernel
  have hsecond : words "ΣΑİΣ" = ["σαi", "ς"] := by decide +kernel
  obtain ⟨-, hwords, happend⟩ := words_maximal_runs "The ΟΔΟΣ" "The ΟΔΟΣ" "ΣΑİΣ"
  have hmem : "οδος" ∈ words "The ΟΔΟΣ" := by rw [hfirst]; exact List.mem_singleton_self _
  rw [hfirst, hsecond] at happend
  exact ⟨happend, hmem, hwords _ hmem⟩

/-! ## Trigrams -/

/-- Whether a text is a part of three characters of a word with two spaces around it. -/
def IsTrigram (word trigram : String) : Prop :=
  trigram.toList.length = 3 ∧ trigram.toList <:+: ' ' :: ' ' :: (word.toList ++ [' ', ' '])

theorem mem_triples_iff {text : List Char} {t : String} :
    t ∈ triples text ↔ t.toList.length = 3 ∧ t.toList <:+: text := by
  induction text using triples.induct with
  | case1 a b c later ih =>
    have hfirst : t = String.ofList [a, b, c] ↔
        t.toList.length = 3 ∧ t.toList <+: a :: b :: c :: later := by
      rw [← String.toList_inj, String.toList_ofList]
      constructor
      · intro h
        rw [h]
        exact ⟨rfl, ⟨later, rfl⟩⟩
      · rintro ⟨hlength, hbegin⟩
        rw [List.prefix_iff_eq_take, hlength] at hbegin
        exact hbegin
    have hinfix : t.toList <:+: a :: b :: c :: later ↔
        t.toList <+: a :: b :: c :: later ∨ t.toList <:+: b :: c :: later := List.infix_cons_iff
    rw [triples, List.mem_cons, ih, hfirst, hinfix, and_or_left]
  | case2 text hshort =>
    have hnil : triples text = [] := by
      unfold triples
      split
      · exact absurd rfl (hshort _ _ _ _)
      · rfl
    rw [hnil, iff_false_left List.not_mem_nil]
    rintro ⟨hlength, hinfix⟩
    have hle := hinfix.length_le
    rw [hlength] at hle
    match text, hle with
    | a :: b :: c :: later, _ => exact hshort a b c later rfl

theorem mem_trigrams_iff {word t : String} : t ∈ trigrams word ↔ IsTrigram word t := by
  rw [trigrams, List.mem_eraseDups, mem_triples_iff]
  rfl

theorem nodup_trigrams (word : String) : (trigrams word).Nodup :=
  nodup_eraseDups _

end SchemaMatch.Text

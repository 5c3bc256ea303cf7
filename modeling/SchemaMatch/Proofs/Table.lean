import Mathlib.Data.List.Induction
import SchemaMatch.Table

/-!
# Tables filled entry by entry

A table that is filled one name at a time has the names in the order in which they first come, which
is what is left of all names when repetitions are removed (`Table.names_change_eraseDups`). A table
of entries that are inserted has under each name the last one: `Table.get?_ofList`.
-/

namespace SchemaMatch

/-! ## Removing repetitions -/

section Repetitions

variable {α β : Type} [BEq α] [LawfulBEq α] [BEq β] [LawfulBEq β]

/-- Removing repetitions leaves out a name that came before. -/
theorem eraseDups_append_singleton (names : List α) (name : α) :
    (names ++ [name]).eraseDups =
      if name ∈ names then names.eraseDups else names.eraseDups ++ [name] := by
  rw [List.eraseDups_append]
  by_cases h : name ∈ names <;> simp [h, List.removeAll, List.eraseDups_cons]

theorem nodup_eraseDups (names : List α) : names.eraseDups.Nodup := by
  induction names using List.reverseRecOn with
  | nil => exact .nil
  | append_singleton names name ih =>
    rw [eraseDups_append_singleton]
    split
    · exact ih
    · next h =>
      refine List.nodup_append.2 ⟨ih, by simp, fun a ha b hb => ?_⟩
      rw [List.mem_singleton.1 hb]
      exact fun e => h (List.mem_eraseDups.1 (e ▸ ha))

/-- Repetitions are the same under other names. -/
theorem eraseDups_map {f : α → β} (hf : f.Injective) (names : List α) :
    (names.map f).eraseDups = names.eraseDups.map f := by
  induction names using List.reverseRecOn with
  | nil => rfl
  | append_singleton names name ih =>
    have hmem : f name ∈ names.map f ↔ name ∈ names := by simp [hf.eq_iff]
    rw [List.map_append, List.map_singleton, eraseDups_append_singleton,
      eraseDups_append_singleton, ih]
    by_cases h : name ∈ names <;> simp [hmem, h]

/-- Removing repetitions and other items can be done in either order. -/
theorem eraseDups_filter (keep : α → Bool) (names : List α) :
    (names.filter keep).eraseDups = names.eraseDups.filter keep := by
  induction names using List.reverseRecOn with
  | nil => rfl
  | append_singleton earlier name ih =>
    rw [List.filter_append, eraseDups_append_singleton]
    by_cases hkeep : keep name
    · rw [List.filter_cons_of_pos hkeep, List.filter_nil, eraseDups_append_singleton, ih]
      by_cases hname : name ∈ earlier <;> simp [hname, hkeep]
    · rw [List.filter_cons_of_neg hkeep, List.filter_nil, List.append_nil, ih]
      split <;> simp [hkeep]

end Repetitions

namespace Table

variable {α : Type}

theorem names_change_eraseDups {t : Table α} {names : List String} (h : t.names = names.eraseDups)
    (name : String) (f : Option α → α) :
    (t.change name f).names = (names ++ [name]).eraseDups := by
  rw [names_change, h, eraseDups_append_singleton]
  simp only [List.mem_eraseDups]

/-- If making all entries over twice is the same as once, then it does not matter whether it was
    done before one of them was changed, as long as this makes no difference to that one. -/
theorem map_change_map {g : α → α} {f : Option α → α} (hg : ∀ held, g (g held) = g held)
    (hf : ∀ held, g (f (held.map g)) = g (f held)) (t : Table α) (name : String) :
    ((t.map g).change name f).map g = (t.change name f).map g := by
  have hentries : ∀ entries : List (String × α),
      (changeEntry name f (entries.map fun entry => (entry.1, g entry.2))).map
          (fun entry => (entry.1, g entry.2)) =
        (changeEntry name f entries).map fun entry => (entry.1, g entry.2) := by
    intro entries
    induction entries with
    | nil => rfl
    | cons entry later ih =>
      rw [List.map_cons, changeEntry, changeEntry]
      split
      · have hheld : g (f (some (g entry.2))) = g (f (some entry.2)) := hf (some entry.2)
        simp [hheld, hg]
      · simp [hg, ih]
  exact Table.ext (hentries t.entries)

theorem ofList_append_singleton (entries : List (String × α)) (entry : String × α) :
    ofList (entries ++ [entry]) = (ofList entries).insert entry.1 entry.2 := by
  simp [ofList]

/-- The names are in the order in which they first come. -/
theorem names_ofList (entries : List (String × α)) :
    (ofList entries).names = (entries.map (·.1)).eraseDups := by
  induction entries using List.reverseRecOn with
  | nil => rfl
  | append_singleton entries entry ih =>
    rw [ofList_append_singleton, List.map_append]
    exact names_change_eraseDups ih _ _

/-- Under a name is the last entry that was given for it. -/
theorem get?_ofList (entries : List (String × α)) (name : String) :
    (ofList entries).get? name = entries.reverse.lookup name := by
  induction entries using List.reverseRecOn with
  | nil => rfl
  | append_singleton entries entry ih =>
    obtain ⟨key, held⟩ := entry
    rw [ofList_append_singleton, get?_insert, ih, List.reverse_append]
    by_cases h : name = key
    · simp [h]
    · have h' : (name == key) = false := by simpa using h
      simp [List.lookup_cons, h, h']

/-! ## Places -/

variable {t : Table α} {name : String} {place : Nat} {entry : α}

/-- The place of a name is the only one where it is. -/
theorem position?_eq_some_iff : t.position? name = some place ↔ t.names[place]? = some name := by
  rw [position?, List.idxOf?_eq_some_iff, List.getElem?_eq_some_iff]
  constructor
  · rintro ⟨hlt, hname, -⟩
    exact ⟨hlt, hname⟩
  · rintro ⟨hlt, hname⟩
    refine ⟨hlt, hname, fun earlier hearlier hname' => ?_⟩
    have hlt' : earlier < t.names.length := Nat.lt_trans hearlier hlt
    have hsame : t.names[earlier]? = t.names[place]? := by
      rw [List.getElem?_eq_getElem hlt', List.getElem?_eq_getElem hlt, hname, hname']
    exact Nat.ne_of_lt hearlier ((List.getElem?_inj hlt' t.nodup_names).1 hsame)

theorem length_names (t : Table α) : t.names.length = t.size := List.length_map _

theorem position?_eq_none_iff : t.position? name = none ↔ name ∉ t.names :=
  List.idxOf?_eq_none_iff

/-- A new name is given the place behind all others. -/
theorem position?_change_of_notMem (h : name ∉ t.names) (f : Option α → α) (other : String) :
    (t.change name f).position? other =
      if name = other then some t.size else t.position? other := by
  rw [position?, names_change, if_neg h, List.idxOf?, List.findIdx?_append]
  by_cases hother : name = other
  · subst hother
    have hnone : t.names.findIdx? (· == name) = none := position?_eq_none_iff.2 h
    simp [hnone, length_names]
  · simp [hother, position?, List.idxOf?]

/-- A name that is there keeps its place, and so do all others. -/
theorem position?_change_of_mem (h : name ∈ t.names) (f : Option α → α) (other : String) :
    (t.change name f).position? other = t.position? other := by
  rw [position?, names_change, if_pos h, position?]

/-- The entry of a name is where the name is. -/
theorem get?_eq_bind_position? (t : Table α) (name : String) :
    t.get? name = (t.position? name).bind fun place => t.entries[place]?.map (·.2) := by
  rw [get?, position?, names]
  induction t.entries with
  | nil => rfl
  | cons first later ih =>
    rw [List.lookup_cons, List.map_cons, List.idxOf?_cons, BEq.comm]
    by_cases h : (first.1 == name) = true
    · simp [h]
    · simp only [h, ih, Bool.false_eq_true, if_false, Option.bind_map]
      rfl

theorem getElem?_entries_eq_some_iff :
    t.entries[place]? = some (name, entry) ↔
      t.names[place]? = some name ∧ t.get? name = some entry := by
  have hnames : t.names[place]? = t.entries[place]?.map (·.1) := List.getElem?_map
  rw [get?_eq_bind_position?]
  constructor
  · intro h
    have hname : t.names[place]? = some name := by rw [hnames, h]; rfl
    rw [position?_eq_some_iff.2 hname, Option.bind_some, h]
    exact ⟨hname, rfl⟩
  · rintro ⟨hname, hentry⟩
    rw [position?_eq_some_iff.2 hname, Option.bind_some, Option.map_eq_some_iff] at hentry
    obtain ⟨⟨other, _⟩, h, rfl⟩ := hentry
    rw [hnames, h] at hname
    cases hname
    exact h

theorem mem_entries_iff : (name, entry) ∈ t.entries ↔ t.get? name = some entry := by
  rw [List.mem_iff_getElem?]
  simp only [getElem?_entries_eq_some_iff]
  constructor
  · rintro ⟨_, -, h⟩
    exact h
  · intro h
    rw [get?_eq_bind_position?, Option.bind_eq_some_iff] at h
    obtain ⟨place, hplace, hentry⟩ := h
    refine ⟨place, position?_eq_some_iff.1 hplace, ?_⟩
    rwa [get?_eq_bind_position?, hplace]

theorem isSome_get?_iff : (t.get? name).isSome ↔ name ∈ t.names := by
  rw [Option.isSome_iff_exists, names, List.mem_map]
  simp only [← mem_entries_iff]
  constructor
  · rintro ⟨entry, h⟩
    exact ⟨(name, entry), h, rfl⟩
  · rintro ⟨⟨_, entry⟩, h, rfl⟩
    exact ⟨entry, h⟩

theorem get?_eq_none_iff : t.get? name = none ↔ name ∉ t.names := by
  rw [← isSome_get?_iff, Option.not_isSome_iff_eq_none]

/-- Looking up all names gives all entries, in their order. -/
theorem map_get?_names (t : Table α) : t.names.map t.get? = t.values.map some := by
  rw [names, values, List.map_map, List.map_map]
  exact List.map_congr_left fun entry h => mem_entries_iff.1 h

end Table

end SchemaMatch

import SchemaMatch.Proofs.Table
import SchemaMatch.Table.Indexed

/-!
# Indices are never stale

An indexed table *represents* a table if it has its entries and its index has the places of its
names, all of them and no others (`IndexedTable.Represents`). Every change keeps this, and none
fails: `Represents.exists_change`. So a table and its index are filled together, and what is looked
up through the index is what a search of the names finds (`Represents.get?_eq`).
-/

namespace SchemaMatch

/-- Where every step succeeds and keeps two states related, all steps one after the other do. -/
theorem exists_foldlM_eq_some {σ τ ι : Type} (related : σ → τ → Prop) {step : σ → ι → Option σ}
    {step' : τ → ι → τ}
    (hstep : ∀ s t i, related s t → ∃ s', step s i = some s' ∧ related s' (step' t i))
    {s : σ} {t : τ} (h : related s t) (items : List ι) :
    ∃ s', items.foldlM step s = some s' ∧ related s' (items.foldl step' t) := by
  induction items generalizing s t with
  | nil => exact ⟨s, rfl, h⟩
  | cons first later ih =>
    obtain ⟨s', hs', h'⟩ := hstep s t first h
    rw [List.foldlM_cons, hs', List.foldl_cons]
    exact ih h'

/-- An entry that is there is changed in its place. -/
theorem exists_changeEntry_eq_set {α : Type} {name : String} {place : Nat}
    {entries : List (String × α)} (h : (entries.map (·.1)).idxOf? name = some place)
    (f : Option α → α) :
    ∃ entry, entries[place]? = some (name, entry) ∧
      changeEntry name f entries = entries.set place (name, f (some entry)) := by
  induction entries generalizing place with
  | nil => simp at h
  | cons first later ih =>
    obtain ⟨other, held⟩ := first
    rw [List.map_cons, List.idxOf?_cons] at h
    by_cases hother : other = name
    · subst hother
      obtain rfl : place = 0 := by simpa [eq_comm] using h
      exact ⟨held, rfl, by simp [changeEntry]⟩
    · rw [if_neg (by simpa using hother), Option.map_eq_some_iff] at h
      obtain ⟨earlier, hplace, rfl⟩ := h
      obtain ⟨entry, hentry, hset⟩ := ih hplace
      exact ⟨entry, hentry, by rw [changeEntry, if_neg hother, hset, List.set_cons_succ]⟩

namespace IndexedTable

variable {α : Type} {t : IndexedTable α} {table : Table α}

/-- Whether an indexed table has the entries of a table, and its index the places of its names. -/
structure Represents (t : IndexedTable α) (table : Table α) : Prop where
  entries_eq : t.entries = table.entries
  index_eq : ∀ name : String, t.index[name]? = table.position? name

theorem represents_withCapacity (capacity : Nat) :
    (withCapacity capacity : IndexedTable α).Represents .empty where
  entries_eq := rfl
  index_eq _ := Std.HashMap.getElem?_emptyWithCapacity

/-- A change succeeds, and changes the table and its index together. -/
theorem Represents.exists_change (h : t.Represents table) (name : String) (f : Option α → α) :
    ∃ t', t.change name f = some t' ∧ t'.Represents (table.change name f) := by
  rw [change, h.index_eq]
  cases hplace : table.position? name with
  | some place =>
    -- The entry is changed where it is, and the index is left as it is.
    have hmem : name ∈ table.names := List.mem_of_getElem? (Table.position?_eq_some_iff.1 hplace)
    obtain ⟨entry, hentry, hset⟩ := exists_changeEntry_eq_set hplace f
    simp only [h.entries_eq, hentry, Option.map_some, Option.some.injEq, exists_eq_left']
    exact ⟨hset.symm, fun other => by
      rw [h.index_eq, Table.position?_change_of_mem hmem]⟩
  | none =>
    -- The index is given the place at the end, which is where the entry goes.
    have hnotMem : name ∉ table.names := Table.position?_eq_none_iff.1 hplace
    simp only [h.entries_eq, Option.some.injEq, exists_eq_left']
    exact ⟨(changeEntry_of_notMem hnotMem).symm, fun other => by
      simp only [Std.HashMap.getElem?_insert, h.index_eq, beq_iff_eq, Table.size,
        Table.position?_change_of_notMem hnotMem]⟩

/-! ## Looking up -/

namespace Represents

theorem names_eq (h : t.Represents table) : t.names = table.names := by
  rw [names, h.entries_eq, Table.names]

theorem nodup_names (h : t.Represents table) : t.names.Nodup := by
  rw [h.names_eq]
  exact table.nodup_names

theorem values_eq (h : t.Represents table) : t.values = table.values := by
  rw [values, h.entries_eq, Table.values]

theorem get?_eq (h : t.Represents table) (name : String) : t.get? name = table.get? name := by
  rw [get?, h.index_eq, h.entries_eq, ← Table.get?_eq_bind_position?]

theorem index_eq_some_iff (h : t.Represents table) {name : String} {place : Nat} :
    t.index[name]? = some place ↔ t.names[place]? = some name := by
  rw [h.index_eq, h.names_eq, Table.position?_eq_some_iff]

theorem contains_eq (h : t.Represents table) (name : String) :
    t.contains name = (t.get? name).isSome := by
  rw [Bool.eq_iff_iff, h.get?_eq, Table.isSome_get?_iff, contains,
    Std.HashMap.contains_eq_isSome_getElem?, h.index_eq, Table.position?, List.isSome_idxOf?]

theorem map_get?_names (h : t.Represents table) : t.names.map t.get? = t.values.map some := by
  rw [h.names_eq, h.values_eq, funext h.get?_eq, Table.map_get?_names]

/-- The entries tell what is looked up. -/
theorem get?_eq_of_entries_eq {t' : IndexedTable α} {table' : Table α} (h : t.Represents table)
    (h' : t'.Represents table') (hentries : t.entries = t'.entries) (name : String) :
    t.get? name = t'.get? name := by
  have htable : table = table' :=
    Table.ext (h.entries_eq.symm.trans (hentries.trans h'.entries_eq))
  rw [h.get?_eq, h'.get?_eq, htable]

theorem beq_eq [BEq α] {t' : IndexedTable α} {table' : Table α} (h : t.Represents table)
    (h' : t'.Represents table') : (t == t') = (table == table') := by
  change (t.entries == t'.entries) = (table.entries == table'.entries)
  rw [h.entries_eq, h'.entries_eq]

end Represents

theorem beq_iff [BEq α] [LawfulBEq α] {t' : IndexedTable α} :
    (t == t') = true ↔ t.entries = t'.entries := by
  change (t.entries == t'.entries) = true ↔ _
  exact beq_iff_eq

theorem ofList_append_singleton (capacity : Nat) (entries : List (String × α))
    (entry : String × α) :
    ofList capacity (entries ++ [entry]) =
      (ofList capacity entries).bind (·.insert entry.1 entry.2) := by
  simp only [ofList, List.foldlM_append, List.foldlM_cons, List.foldlM_nil, bind_pure]
  rfl

/-- Entries are inserted one after the other, as into a table without an index. -/
theorem exists_ofList (capacity : Nat) (entries : List (String × α)) :
    ∃ t, ofList capacity entries = some t ∧ t.Represents (.ofList entries) :=
  exists_foldlM_eq_some Represents (fun _ _ entry h => h.exists_change entry.1 fun _ => entry.2)
    (represents_withCapacity capacity) entries

end IndexedTable

end SchemaMatch

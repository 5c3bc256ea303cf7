/-!
# Tables in order of insertion

A `Table` keeps entries under distinct names, in the order in which the names first came. Whatever
happens to a name later leaves its place alone.
-/

namespace SchemaMatch

/-- Changes the entry of a name, or makes one at the end. -/
def changeEntry {α : Type} (name : String) (change : Option α → α) :
    List (String × α) → List (String × α)
  | [] => [(name, change none)]
  | (other, held) :: later =>
    if other = name then (other, change (some held)) :: later
    else (other, held) :: changeEntry name change later

theorem map_fst_changeEntry {α : Type} (name : String) (change : Option α → α)
    (entries : List (String × α)) :
    (changeEntry name change entries).map (·.1) =
      if name ∈ entries.map (·.1) then entries.map (·.1) else entries.map (·.1) ++ [name] := by
  induction entries with
  | nil => simp [changeEntry]
  | cons entry later ih =>
    obtain ⟨other, held⟩ := entry
    by_cases h : other = name
    · simp [changeEntry, h]
    · have h' : name ≠ other := fun e => h e.symm
      simp only [changeEntry, h, if_false, List.map_cons, ih, List.mem_cons, h', false_or]
      split <;> simp

theorem changeEntry_of_notMem {α : Type} {name : String} {change : Option α → α}
    {entries : List (String × α)} (h : name ∉ entries.map (·.1)) :
    changeEntry name change entries = entries ++ [(name, change none)] := by
  induction entries with
  | nil => rfl
  | cons entry later ih =>
    rw [List.map_cons, List.mem_cons, not_or] at h
    rw [changeEntry, if_neg fun e => h.1 e.symm, ih h.2, List.cons_append]

theorem lookup_changeEntry {α : Type} (name other : String) (change : Option α → α)
    (entries : List (String × α)) :
    (changeEntry name change entries).lookup other =
      if other = name then some (change (entries.lookup name)) else entries.lookup other := by
  induction entries with
  | nil =>
    by_cases h : other = name
    · simp [changeEntry, h]
    · have h' : (other == name) = false := by simpa using h
      simp [changeEntry, List.lookup_cons, h, h']
  | cons entry later ih =>
    obtain ⟨held, value⟩ := entry
    by_cases hn : held = name
    · subst hn
      by_cases h : other = held
      · simp [changeEntry, h]
      · have h' : (other == held) = false := by simpa using h
        simp [changeEntry, List.lookup_cons, h, h']
    · have hn' : (name == held) = false := by simpa using fun e => hn e.symm
      simp only [changeEntry, hn, if_false, List.lookup_cons, hn', ih]
      by_cases h : other = held
      · have ho : other ≠ name := fun e => hn (h.symm.trans e)
        simp [h, hn]
      · have h' : (other == held) = false := by simpa using h
        simp [h']

/-- Entries under distinct names, in the order in which the names first came. -/
structure Table (α : Type) where
  /-- The names with their entries. -/
  entries : List (String × α)
  /-- No name comes twice. -/
  distinct : (entries.map (·.1)).Nodup

namespace Table

variable {α β : Type}

/-- The table without entries. -/
def empty : Table α := ⟨[], .nil⟩

instance : Inhabited (Table α) := ⟨empty⟩

/-- The names, in the order in which they first came. -/
def names (t : Table α) : List String := t.entries.map (·.1)

/-- The entries, in the order of their names. -/
def values (t : Table α) : List α := t.entries.map (·.2)

/-- The number of names. -/
def size (t : Table α) : Nat := t.entries.length

/-- Whether there is no name. -/
def isEmpty (t : Table α) : Bool := t.entries.isEmpty

/-- The entry of a name. -/
def get? (t : Table α) (name : String) : Option α := t.entries.lookup name

/-- Whether there is an entry of a name. -/
def contains (t : Table α) (name : String) : Bool := (t.get? name).isSome

/-- The place of a name. -/
def position? (t : Table α) (name : String) : Option Nat := t.names.idxOf? name

/-- Changes the entry of a name, or makes one at the end. -/
def change (t : Table α) (name : String) (change : Option α → α) : Table α where
  entries := changeEntry name change t.entries
  distinct := by
    rw [map_fst_changeEntry]
    split
    · exact t.distinct
    · next h =>
      refine List.nodup_append.2 ⟨t.distinct, by simp, fun a ha b hb => ?_⟩
      rw [List.mem_singleton.1 hb]
      exact fun e => h (e ▸ ha)

/-- Sets the entry of a name. -/
def insert (t : Table α) (name : String) (entry : α) : Table α :=
  t.change name fun _ => entry

/-- The table made by inserting entries one after the other. -/
def ofList (entries : List (String × α)) : Table α :=
  entries.foldl (fun t entry => t.insert entry.1 entry.2) empty

/-- Changes every entry. -/
def map (f : α → β) (t : Table α) : Table β where
  entries := t.entries.map fun entry => (entry.1, f entry.2)
  distinct := by
    rw [List.map_map]
    exact t.distinct

/-! A name keeps its place, a new name comes last, and no entry but that of the name changes. -/

theorem nodup_names (t : Table α) : t.names.Nodup := t.distinct

@[simp] theorem names_empty : (empty : Table α).names = [] := rfl

theorem names_change (t : Table α) (name : String) (f : Option α → α) :
    (t.change name f).names = if name ∈ t.names then t.names else t.names ++ [name] :=
  map_fst_changeEntry name f t.entries

theorem get?_change (t : Table α) (name other : String) (f : Option α → α) :
    (t.change name f).get? other = if other = name then some (f (t.get? name)) else t.get? other :=
  lookup_changeEntry name other f t.entries

theorem get?_insert (t : Table α) (name other : String) (entry : α) :
    (t.insert name entry).get? other = if other = name then some entry else t.get? other :=
  t.get?_change name other _

@[simp] theorem names_map (t : Table α) (f : α → β) : (t.map f).names = t.names := by
  simp [names, map, Function.comp_def]

theorem get?_map (t : Table α) (f : α → β) (name : String) :
    (t.map f).get? name = (t.get? name).map f := by
  simp only [get?, map]
  induction t.entries with
  | nil => rfl
  | cons entry later ih =>
    obtain ⟨other, held⟩ := entry
    by_cases h : name == other
    · simp [List.lookup_cons, h]
    · simp [List.lookup_cons, h, ih]

/-- Inserting entries of distinct names leaves them as they are. -/
theorem entries_ofList {entries : List (String × α)} (h : (entries.map (·.1)).Nodup) :
    (ofList entries).entries = entries := by
  have hinsert : ∀ (later : List (String × α)) (t : Table α),
      (t.names ++ later.map (·.1)).Nodup →
        (later.foldl (fun t entry => t.insert entry.1 entry.2) t).entries = t.entries ++ later := by
    intro later
    induction later with
    | nil => simp
    | cons entry later ih =>
      intro t ht
      have hnew : entry.1 ∉ t.names := fun hmem =>
        (List.nodup_append.1 ht).2.2 _ hmem _ (by simp) rfl
      have hentries : (t.insert entry.1 entry.2).entries = t.entries ++ [entry] :=
        changeEntry_of_notMem hnew
      rw [List.foldl_cons, ih, hentries]
      · simp
      · simpa [names, hentries] using ht
  exact hinsert entries empty h

/-- Two tables are the same when they have the same entries in the same order. -/
instance [BEq α] : BEq (Table α) := ⟨fun s t => s.entries == t.entries⟩

theorem ext {s t : Table α} (h : s.entries = t.entries) : s = t := by
  cases s
  cases t
  congr

end Table

end SchemaMatch

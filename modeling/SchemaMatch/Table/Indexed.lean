import Std.Data.HashMap
import SchemaMatch.Table

/-!
# Tables with an index

An `IndexedTable` has the entries of a table and, beside them, an index with the place of each name,
so that no name has to be searched. Its type does not tie the two together: an index may be stale,
and give a place where the entry of another name is or none at all. A change that is sent to a place
without an entry fails.
-/

namespace SchemaMatch

/-- Entries, and an index of the places of their names. -/
structure IndexedTable (α : Type) where
  /-- The names with their entries. -/
  entries : List (String × α)
  /-- The places of the names. -/
  index : Std.HashMap String Nat

namespace IndexedTable

variable {α : Type}

/-- The table without entries, with room for some. -/
def withCapacity (capacity : Nat) : IndexedTable α := ⟨[], .emptyWithCapacity capacity⟩

/-- The names, in their order. -/
def names (t : IndexedTable α) : List String := t.entries.map (·.1)

/-- The entries, in the order of their names. -/
def values (t : IndexedTable α) : List α := t.entries.map (·.2)

/-- The number of names. -/
def size (t : IndexedTable α) : Nat := t.entries.length

/-- The entry at the place that the index has for a name. -/
def get? (t : IndexedTable α) (name : String) : Option α :=
  t.index[name]?.bind fun place => t.entries[place]?.map (·.2)

/-- Whether the index has a place for a name. -/
def contains (t : IndexedTable α) (name : String) : Bool := t.index.contains name

/-- Changes the entry at the place that the index has for a name. A name without a place is given
    one at the end. -/
def change (t : IndexedTable α) (name : String) (f : Option α → α) : Option (IndexedTable α) :=
  match t.index[name]? with
  | some place =>
    t.entries[place]?.map fun entry =>
      { t with entries := t.entries.set place (entry.1, f (some entry.2)) }
  | none =>
    some ⟨t.entries ++ [(name, f none)], t.index.insert name t.entries.length⟩

/-- Sets the entry of a name. -/
def insert (t : IndexedTable α) (name : String) (entry : α) : Option (IndexedTable α) :=
  t.change name fun _ => entry

/-- The table made by inserting entries one after the other into one with room for some. -/
def ofList (capacity : Nat) (entries : List (String × α)) : Option (IndexedTable α) :=
  entries.foldlM (fun t entry => t.insert entry.1 entry.2) (withCapacity capacity)

/-- Two tables are the same when they have the same entries in the same order. The index plays no
    part in this. -/
instance [BEq α] : BEq (IndexedTable α) := ⟨fun s t => s.entries == t.entries⟩

end IndexedTable

end SchemaMatch

import EventWire.Name

/-!
# Tables by type

A table holds one entry for each of some types of payloads, in order of their first
insertion. `get?_insert` says all there is to say about insertion.
-/

namespace EventWire

/-- A table from types to entries. -/
structure Table (α : Type) where
  entries : List (DataType × α)
  distinct : (entries.map (·.1)).Nodup

namespace Table

variable {α : Type}

/-- No entries. -/
def empty : Table α where
  entries := []
  distinct := by simp

/-- Puts an entry under a type: a type that is there keeps its place. -/
def insertEntry (t : DataType) (a : α) : List (DataType × α) → List (DataType × α)
  | [] => [(t, a)]
  | (k, b) :: rest => if k = t then (k, a) :: rest else (k, b) :: insertEntry t a rest

/-- The entry under a type. -/
def findEntry (t : DataType) : List (DataType × α) → Option α
  | [] => none
  | (k, a) :: rest => if k = t then some a else findEntry t rest

theorem mem_map_insertEntry {t k : DataType} {a : α} {entries : List (DataType × α)} :
    k ∈ (insertEntry t a entries).map (·.1) ↔ k = t ∨ k ∈ entries.map (·.1) := by
  induction entries with
  | nil => simp [insertEntry]
  | cons e rest ih =>
    obtain ⟨x, b⟩ := e
    simp only [insertEntry]
    split
    · rename_i h; subst h; simp
    · simp only [List.map_cons, List.mem_cons, ih]
      grind

theorem nodup_insertEntry {t : DataType} {a : α} {entries : List (DataType × α)}
    (h : (entries.map (·.1)).Nodup) : ((insertEntry t a entries).map (·.1)).Nodup := by
  induction entries with
  | nil => simp [insertEntry]
  | cons e rest ih =>
    obtain ⟨x, b⟩ := e
    simp only [List.map_cons, List.nodup_cons] at h
    simp only [insertEntry]
    split
    · simpa using h
    · rename_i hne
      simp only [List.map_cons, List.nodup_cons, mem_map_insertEntry]
      exact ⟨by grind, ih h.2⟩

/-- Puts an entry under a type; what was there is replaced. -/
def insert (table : Table α) (t : DataType) (a : α) : Table α where
  entries := insertEntry t a table.entries
  distinct := nodup_insertEntry table.distinct

/-- The entry under a type. -/
def get? (table : Table α) (t : DataType) : Option α :=
  findEntry t table.entries

/-- True for types with an entry. -/
def contains (table : Table α) (t : DataType) : Bool :=
  (table.get? t).isSome

/-- The types with entries. -/
def types (table : Table α) : List DataType :=
  table.entries.map (·.1)

/-- The number of entries. -/
def size (table : Table α) : Nat :=
  table.entries.length

theorem findEntry_insertEntry (t u : DataType) (a : α) (entries : List (DataType × α)) :
    findEntry u (insertEntry t a entries) = if u = t then some a else findEntry u entries := by
  induction entries with
  | nil => grind [insertEntry, findEntry]
  | cons e rest ih => grind [insertEntry, findEntry]

/-- A table answers with the last entry that was put under a type. -/
theorem get?_insert (table : Table α) (t u : DataType) (a : α) :
    (table.insert t a).get? u = if u = t then some a else table.get? u :=
  findEntry_insertEntry t u a table.entries

end Table

end EventWire

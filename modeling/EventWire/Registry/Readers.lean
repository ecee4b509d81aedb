import EventWire.Codec.Error
import EventWire.Registry.Table

/-!
# Readers by type and media type

For each type there is a list of readers under distinct media types, in order of
their registration, and there may be a default media type. A reader is looked up in
three steps, each tried when the one before finds nothing: under the very media
type, under one of the same base and encoding, and, for a media type without an
encoding, under one of the same base.
-/

namespace EventWire

/-- Readers of one type, in order of registration. -/
structure ReaderList (α : Type) where
  entries : List (MediaType × α)
  distinct : (entries.map (·.1)).Nodup

namespace ReaderList

variable {α : Type}

/-- No readers. -/
def empty : ReaderList α where
  entries := []
  distinct := by simp

/-- Puts a reader under a media type: one that is there is replaced. -/
def insertEntry (m : MediaType) (a : α) : List (MediaType × α) → List (MediaType × α)
  | [] => [(m, a)]
  | (k, b) :: rest => if k = m then (k, a) :: rest else (k, b) :: insertEntry m a rest

theorem mem_map_insertEntry {m k : MediaType} {a : α} {entries : List (MediaType × α)} :
    k ∈ (insertEntry m a entries).map (·.1) ↔ k = m ∨ k ∈ entries.map (·.1) := by
  induction entries with
  | nil => simp [insertEntry]
  | cons e rest ih =>
    obtain ⟨x, b⟩ := e
    simp only [insertEntry]
    split
    · rename_i h; subst h; simp
    · simp only [List.map_cons, List.mem_cons, ih]
      grind

theorem nodup_insertEntry {m : MediaType} {a : α} {entries : List (MediaType × α)}
    (h : (entries.map (·.1)).Nodup) : ((insertEntry m a entries).map (·.1)).Nodup := by
  induction entries with
  | nil => simp [insertEntry]
  | cons e rest ih =>
    obtain ⟨x, b⟩ := e
    simp only [List.map_cons, List.nodup_cons] at h
    simp only [insertEntry]
    split
    · simpa using h
    · rename_i hne
      simp only [List.map_cons, List.nodup_cons, mem_map_insertEntry]
      exact ⟨by grind, ih h.2⟩

/-- Puts a reader under a media type. -/
def insert (l : ReaderList α) (m : MediaType) (a : α) : ReaderList α where
  entries := insertEntry m a l.entries
  distinct := nodup_insertEntry l.distinct

/-- The media types in order of registration. -/
def mediaTypes (l : ReaderList α) : List MediaType :=
  l.entries.map (·.1)

/-- The reader for a media type. -/
def lookup? (l : ReaderList α) (m : MediaType) : Option α :=
  let exact := l.entries.find? fun e => e.1 = m
  let sameEncoding := l.entries.find? fun e => e.1.matchesEncoding m
  -- Without an encoding, a reader decodes with its own charset.
  let sameBase := if m.encoding.isSome then none else l.entries.find? fun e => e.1.sameBase m
  ((exact.or sameEncoding).or sameBase).map (·.2)

end ReaderList

/-- Readers of all types, with the default media types. -/
structure Readers (α : Type) where
  lists : Table (ReaderList α)
  defaults : Table MediaType

namespace Readers

variable {α : Type}

/-- No readers and no defaults. -/
def empty : Readers α where
  lists := .empty
  defaults := .empty

/-- The readers of a type. -/
def listOf (r : Readers α) (t : DataType) : ReaderList α :=
  (r.lists.get? t).getD .empty

/-- Registers a reader. -/
def add (r : Readers α) (t : DataType) (m : MediaType) (a : α) : Readers α :=
  { r with lists := r.lists.insert t ((r.listOf t).insert m a) }

/-- Sets the default media type of a type. -/
def setDefault (r : Readers α) (t : DataType) (m : MediaType) : Readers α :=
  { r with defaults := r.defaults.insert t m }

/-- Registers a reader under what becomes the default media type. -/
def addDefault (r : Readers α) (t : DataType) (m : MediaType) (a : α) : Readers α :=
  (r.setDefault t m).add t m a

/-- The default media type of a type. -/
def default? (r : Readers α) (t : DataType) : Option MediaType :=
  r.defaults.get? t

/-- True when a reader is registered under the very media type. -/
def has (r : Readers α) (t : DataType) (m : MediaType) : Bool :=
  (r.listOf t).mediaTypes.contains m

/-- The number of readers. -/
def size (r : Readers α) : Nat :=
  r.lists.entries.foldr (fun e n => e.2.entries.length + n) 0

/-- The reader for a type and a media type, the default one if none is given. -/
def find (r : Readers α) (t : DataType) (m : Option MediaType) : Except SerializationError α :=
  match m.or (r.default? t) with
  | none => .error (.defaultNotFound t)
  | some m =>
    match (r.listOf t).lookup? m with
    | some a => .ok a
    | none => .error (.deserializerNotFound t m)

end Readers

end EventWire

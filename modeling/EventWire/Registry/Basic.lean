import EventWire.Codec.Basic
import EventWire.Registry.Readers

/-!
# Registries

A registry has a writer for each of some types, and readers by type and media type.
It is put together step by step; `build` hands out what has been put together and
starts afresh, so that what was handed out never changes. Writers and readers are of
any type that tells its media type, codecs above all.
-/

namespace EventWire

/-- Writers by type. -/
abbrev Writers (α : Type) := Table α

/-- The writer of a type. -/
def Writers.find {α : Type} (w : Writers α) (t : DataType) : Except SerializationError α :=
  match w.get? t with
  | some a => .ok a
  | none => .error (.serializerNotFound t)

/-- Writers and readers. -/
structure Registry (α : Type) where
  writers : Writers α
  readers : Readers α

/-- What tells the media type of what it writes. -/
class HasMediaType (α : Type) where
  mediaType : α → MediaType

instance : HasMediaType Codec := ⟨Codec.mediaType⟩

namespace Registry

variable {α : Type}

/-- Nothing registered. -/
def empty : Registry α where
  writers := .empty
  readers := .empty

/-- Registers a codec for writing a type, and for reading what it writes. -/
def add [HasMediaType α] (r : Registry α) (t : DataType) (a : α) : Registry α where
  writers := r.writers.insert t a
  readers := r.readers.add t (HasMediaType.mediaType a) a

/-- Sets the default media type of a type. -/
def setDefault (r : Registry α) (t : DataType) (m : MediaType) : Registry α :=
  { r with readers := r.readers.setDefault t m }

/-- Registers a codec and makes its media type the default. -/
def addDefault [HasMediaType α] (r : Registry α) (t : DataType) (a : α) : Registry α :=
  (r.setDefault t (HasMediaType.mediaType a)).add t a

/-- Registers a codec for reading only. -/
def addReader (r : Registry α) (t : DataType) (m : MediaType) (a : α) : Registry α :=
  { r with readers := r.readers.add t m a }

/-- Hands out what has been registered, and starts afresh. -/
def build (r : Registry α) : Registry α × Registry α :=
  (r, empty)

end Registry

end EventWire

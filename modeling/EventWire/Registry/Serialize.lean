import EventWire.Codec.Marshal
import EventWire.Registry.Basic

/-!
# Serialization through a registry

`Registry.serialize` writes a value with the writer of its type, and
`Registry.deserialize` reads what was written with the reader of its type and media
type.
-/

namespace EventWire

/-- A payload on the wire. -/
structure SerializedData where
  type : DataType
  mediaType : MediaType
  bytes : Bytes
  deriving DecidableEq

namespace Registry

/-- Writes a value. -/
def serialize (r : Registry Codec) (t : DataType) (v : Value) :
    Except SerializationError SerializedData := do
  let codec ← r.writers.find t
  let bytes ← codec.marshal v t
  return { type := t, mediaType := codec.mediaType, bytes }

/-- Writes a value if there is one. -/
def serialize? (r : Registry Codec) (t : DataType) :
    Option Value → Except SerializationError (Option SerializedData)
  | none => .ok none
  | some v => (r.serialize t v).map some

/-- Reads a payload. -/
def deserialize (r : Registry Codec) (d : SerializedData) : Except SerializationError Value := do
  let codec ← r.readers.find d.type (some d.mediaType)
  codec.unmarshal (.bytes d.bytes) d.type d.mediaType

/-- Hands a value over to the reader for a type and a media type, the default one if
none is given. -/
def accept (r : Registry Codec) (t : DataType) (m : Option MediaType) (v : Value) :
    Except SerializationError Value := do
  let codec ← r.readers.find t m
  codec.unmarshal (.native v) t ((m.or (r.readers.default? t)).getD codec.mediaType)

/-- Reads a payload that must be of a type of values. -/
def deserializeAs (r : Registry Codec) (d : SerializedData) (type : ValueType) (label : String) :
    Except SerializationError Value := do
  let v ← r.deserialize d
  if v.type = type then return v
  throw (.typeMismatch .registry label)

/-- The media type that the writers of all types agree on. The walk ends at the
first that disagrees. -/
def commonFrom {α : Type} [HasMediaType α] (w : Writers α) (common : Option MediaType) :
    List DataType → Except SerializationError (Option MediaType)
  | [] => .ok common
  | t :: rest =>
    match w.find t with
    | .error e => .error e
    | .ok a =>
      let m := HasMediaType.mediaType a
      match common with
      | none => commonFrom w (some m) rest
      | some c => if c = m then commonFrom w (some c) rest else .ok none

/-- The media type that the writers of all types agree on, if there is one. -/
def commonMediaType {α : Type} [HasMediaType α] (r : Registry α) (ts : List DataType) :
    Except SerializationError (Option MediaType) :=
  commonFrom r.writers none ts

end Registry

end EventWire

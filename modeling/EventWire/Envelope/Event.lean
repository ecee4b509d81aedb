import EventWire.Envelope.Meta
import EventWire.EventId
import EventWire.Registry.Serialize

/-!
# Events

An event comes in three forms. A `DomainEvent` has payloads in memory, and is what
programs deal with; two of them are the same event when their ids are equal. A
`SerializedEvent` has payloads as bytes with their media types. An `Event` is an
envelope: payloads in memory with their content types, which can be written as JSON
or XML. Every form can be made from every other; making bytes from values, and back,
takes a registry.
-/

namespace EventWire

/-- A payload and the name of its type. -/
structure TypedPayload where
  type : DataType
  payload : Payload

/-- An event in memory. -/
structure DomainEvent where
  id : EventId
  type : EventType
  data : Payload
  metadata : Option TypedPayload

namespace DomainEvent

/-- The type of the data is called like the type of the event. -/
def dataType (e : DomainEvent) : DataType :=
  e.type.retag .dataType

/-- Events are the same when their ids are. -/
def same (a b : DomainEvent) : Bool :=
  a.id = b.id

/-- The types of data and metadata. -/
def types (e : DomainEvent) : List DataType :=
  e.dataType :: (e.metadata.map (·.type)).toList

end DomainEvent

/-- An event as bytes. -/
structure SerializedEvent where
  id : EventId
  type : EventType
  data : SerializedData
  metadata : Option SerializedData
  deriving DecidableEq

namespace SerializedEvent

/-- Writes values through a registry. -/
def ofValues (r : Registry Codec) (id : EventId) (type : EventType) (data : Value)
    (metadata : Option (DataType × Value)) : Except EnvelopeError SerializedEvent := do
  let data ← (r.serialize (type.retag .dataType) data).mapError .serialization
  match metadata with
  | none => return { id, type, data, metadata := none }
  | some (t, v) =>
    let m ← (r.serialize t v).mapError .serialization
    return { id, type, data, metadata := some m }

/-- The value of the data. -/
def dataValue (r : Registry Codec) (e : SerializedEvent) : Except EnvelopeError Value :=
  (r.deserialize e.data).mapError .serialization

/-- The value of the metadata, if there is any. -/
def metadataValue (r : Registry Codec) (e : SerializedEvent) :
    Except EnvelopeError (Option Value) :=
  match e.metadata with
  | none => .ok none
  | some d => ((r.deserialize d).map some).mapError .serialization

/-- The payload of data on the wire: what its reader makes of it if that is a
payload, and otherwise what its media type says. -/
def payloadOf (r : Registry Codec) (d : SerializedData) : Except EnvelopeError Payload := do
  let v ← (r.deserialize d).mapError .serialization
  match Payload.ofValue? v with
  | some p => return p
  | none => Payload.fromBytes d.bytes d.mediaType

/-- The event in memory. -/
def deserialize (r : Registry Codec) (e : SerializedEvent) : Except EnvelopeError DomainEvent := do
  let data ← payloadOf r e.data
  match e.metadata with
  | none => return { id := e.id, type := e.type, data, metadata := none }
  | some d =>
    let payload ← payloadOf r d
    return { id := e.id, type := e.type, data, metadata := some { type := d.type, payload } }

end SerializedEvent

/-- The event as bytes. -/
def DomainEvent.serialize (r : Registry Codec) (e : DomainEvent) :
    Except EnvelopeError SerializedEvent :=
  SerializedEvent.ofValues r e.id e.type e.data.toValue
    (e.metadata.map fun m => (m.type, m.payload.toValue))

/-- An envelope. -/
structure Event where
  id : EventId
  type : EventType
  data : Payload
  metadata : Meta
  fits : data.fits metadata.contentType = true

namespace Event

/-- The element of an event. -/
def element : String := "Event"

/-- The field of the id. -/
def idField : String := "EventId"

/-- The field of the type. -/
def typeField : String := "EventType"

/-- The field of the data. -/
def dataField : String := "Data"

/-- An envelope of data of the kind of its content type. -/
def ofParts (id : EventId) (type : EventType) (data : Payload) (metadata : Meta) :
    Except EnvelopeError Event :=
  if fits : data.fits metadata.contentType = true then .ok { id, type, data, metadata, fits }
  else .error (.payloadMismatch data.kind metadata.contentType)

/-- Equality of envelopes. -/
def same (a b : Event) : Bool :=
  a.id = b.id && a.type = b.type && a.data.same b.data && a.metadata.same b.metadata

/-- The content type of the data. -/
def contentType (e : Event) : MediaType :=
  e.metadata.contentType

/-! ## Other forms -/

/-- The envelope of an event in memory, with the content types of its writers. -/
def ofDomain (r : Registry Codec) (e : DomainEvent) : Except EnvelopeError Event := do
  let codec ← (r.writers.find e.dataType).mapError .serialization
  let user ←
    match e.metadata with
    | none => pure none
    | some m => do
      let c ← (r.writers.find m.type).mapError .serialization
      let u ← UserMeta.ofParts m.type c.mediaType m.payload
      pure (some u)
  ofParts e.id e.type e.data { dataType := e.dataType, contentType := codec.mediaType, user }

/-- The envelope of an event as bytes, with its media types. -/
def ofSerialized (e : SerializedEvent) : Except EnvelopeError Event := do
  let data ← Payload.fromBytes e.data.bytes e.data.mediaType
  let user ←
    match e.metadata with
    | none => pure none
    | some d => do
      let payload ← Payload.fromBytes d.bytes d.mediaType
      let u ← UserMeta.ofParts d.type d.mediaType payload
      pure (some u)
  ofParts e.id e.type data { dataType := e.data.type, contentType := e.data.mediaType, user }

/-- The event as bytes. -/
def toSerialized (e : Event) : Except EnvelopeError SerializedEvent := do
  let bytes ← e.data.toBytes e.contentType
  let data := { type := e.metadata.dataType, mediaType := e.contentType, bytes }
  match e.metadata.user with
  | none => return { id := e.id, type := e.type, data, metadata := none }
  | some u =>
    let bytes ← u.payload.toBytes u.contentType
    return {
      id := e.id, type := e.type, data
      metadata := some { type := u.type, mediaType := u.contentType, bytes } }

/-- The event in memory. -/
def toDomain (e : Event) : DomainEvent where
  id := e.id
  type := e.type
  data := e.data
  metadata := e.metadata.user.map fun u => { type := u.type, payload := u.payload }

/-! ## JSON -/

/-- The envelope in JSON. -/
def toJson (e : Event) : Except EnvelopeError Json := do
  let data ← e.data.toJson
  let metadata ← e.metadata.toJson
  return .object [(idField, .string e.id.text), (typeField, .string e.type.text),
    (dataField, data), (metadataField, metadata)]

/-- A required member. -/
def requiredMember (v : Json) (field : String) : Except EnvelopeError Json :=
  match v.get? field with
  | some w => .ok w
  | none => .error (.missingField field)

/-- Reads an id. -/
def readId (s : String) : Except EnvelopeError EventId :=
  (EventId.ofText s).mapError .id

/-- Checks the name of a type of events. -/
def readEventType (s : String) : Except EnvelopeError EventType :=
  (Name.ofText .eventType s).mapError .id

/-- Reads an envelope from JSON. -/
def ofJson (v : Json) : Except EnvelopeError Event := do
  let id ← readId (← stringOf idField (← requiredMember v idField))
  let type ← readEventType (← stringOf typeField (← requiredMember v typeField))
  let metadata ← Meta.ofJson (← requiredMember v metadataField)
  let data ← Payload.ofJson (← requiredMember v dataField) metadata.contentType dataField
  ofParts id type data metadata

/-- Reads an envelope from JSON text. -/
def ofJsonText (s : String) : Except EnvelopeError Event :=
  match Json.parse? s with
  | some v => ofJson v
  | none => .error .json

/-! ## XML -/

/-- The envelope in XML. -/
def toXml (e : Event) : Xml.Node :=
  ((((Xml.Node.named element).withChild (Meta.textElement idField e.id.text)).withChild
    (Meta.textElement typeField e.type.text)).withChild
    ((Xml.Node.named dataField).push e.data.toContent)).withChild e.metadata.toXml

/-- A required child element. -/
def requiredChild (n : Xml.Node) (field : String) : Except EnvelopeError Xml.Node :=
  match n.child? field with
  | some e => .ok e
  | none => .error (.missingField field)

/-- Refuses an element of another name. -/
def expectElement (n : Xml.Node) (name : String) : Except EnvelopeError Unit :=
  if n.name = name then .ok () else .error (.invalidField name (.unexpectedElement n.name))

/-- Reads an envelope from XML. -/
def ofXml (n : Xml.Node) : Except EnvelopeError Event := do
  expectElement n element
  let id ← readId (← requiredChild n idField).text
  let type ← readEventType (← requiredChild n typeField).text
  let metadata ← Meta.ofXml (← requiredChild n metadataField)
  let data ← Payload.ofXml (← requiredChild n dataField) metadata.contentType dataField
  ofParts id type data metadata

/-- Reads an envelope from XML text. -/
def ofXmlText (s : String) : Except EnvelopeError Event :=
  match Xml.Node.parse s with
  | .ok n => ofXml n
  | .error e => .error (.xml e)

end Event

end EventWire

import EventWire.MediaType.Parser
import EventWire.Payload.Wire

/-!
# Metadata of an envelope

Next to the data of an event, an envelope carries the type and content type of the
data and, if the event has metadata, those of the metadata with its payload. In
JSON the payload stands under the name of its type, or under `Base64` when it is
binary. So a type of metadata must not be called like one of the other keys
(`reservedKeys`), nor `Base64` unless its payload is binary.
-/

namespace EventWire

/-- The key of the type of the data. -/
def dataTypeKey : String := "data-type"

/-- The key of the content type of the data. -/
def dataContentTypeKey : String := "data-content-type"

/-- The key of the type of the metadata. -/
def metaTypeKey : String := "meta-type"

/-- The key of the content type of the metadata. -/
def metaContentTypeKey : String := "meta-content-type"

/-- The element with the payload of the metadata. -/
def metaPayloadKey : String := "meta-data"

/-- The field of an envelope that holds all of this. -/
def metadataField : String := "MetaData"

/-- Keys that no type of metadata may be called. -/
def reservedKeys : List String :=
  [dataTypeKey, dataContentTypeKey, metaTypeKey, metaContentTypeKey]

/-- Checks the name of a type. -/
def readType (s : String) : Except EnvelopeError DataType :=
  (Name.ofText .dataType s).mapError .id

/-- Reads a content type. -/
def readContentType (s : String) : Except EnvelopeError MediaType :=
  (MediaType.parse s).mapError .mediaType

/-! ## Types alone -/

/-- The types of an envelope without the payload of the metadata. -/
structure SystemMeta where
  dataType : DataType
  contentType : MediaType
  user : Option (DataType × MediaType)
  deriving DecidableEq

namespace SystemMeta

/-- The text of a required member. -/
def requiredString (members : List (String × Json)) (key : String) : Except EnvelopeError String :=
  match Json.lookup key members with
  | some v => stringOf key v
  | none => .error (.missingField key)

/-- The members that say what types there are. -/
def members (s : SystemMeta) : List (String × Json) :=
  let data := [(dataTypeKey, Json.string s.dataType.text),
    (dataContentTypeKey, .string s.contentType.print)]
  match s.user with
  | none => data
  | some (t, m) => data ++ [(metaTypeKey, .string t.text), (metaContentTypeKey, .string m.print)]

/-- The types as JSON. -/
def toJson (s : SystemMeta) : Json :=
  .object s.members

/-- Reads the types of the metadata, if there is any. -/
def readUser (members : List (String × Json)) :
    Except EnvelopeError (Option (DataType × MediaType)) :=
  match Json.lookup metaTypeKey members with
  | none => .ok none
  | some v => do
    let t ← readType (← stringOf metaTypeKey v)
    let m ← readContentType (← requiredString members metaContentTypeKey)
    return some (t, m)

/-- Reads the types from JSON. -/
def ofJson (v : Json) : Except EnvelopeError SystemMeta :=
  match v with
  | .object members => do
    let dataType ← readType (← requiredString members dataTypeKey)
    let contentType ← readContentType (← requiredString members dataContentTypeKey)
    let user ← readUser members
    return { dataType, contentType, user }
  | _ => .error (.invalidField metadataField .notObject)

end SystemMeta

/-! ## Metadata -/

/-- True when metadata with this payload may be of this type. -/
def admitsMetaType (t : DataType) (p : Payload) : Bool :=
  !reservedKeys.contains t.text && (t.text ≠ base64Tag || p.kind = .binary)

/-- Metadata of an event. -/
structure UserMeta where
  type : DataType
  contentType : MediaType
  payload : Payload
  fits : payload.fits contentType = true
  admitted : admitsMetaType type payload = true

namespace UserMeta

/-- Metadata of a type, with a payload of the kind of the content type. -/
def ofParts (t : DataType) (m : MediaType) (p : Payload) : Except EnvelopeError UserMeta :=
  if fits : p.fits m = true then
    if admitted : admitsMetaType t p = true then
      .ok { type := t, contentType := m, payload := p, fits, admitted }
    else if reservedKeys.contains t.text then .error (.invalidField metaTypeKey (.reservedKey t.text))
    else .error (.invalidField metaTypeKey (.binaryOnly base64Tag))
  else .error (.payloadMismatch p.kind m)

/-- Equality of metadata. -/
def same (a b : UserMeta) : Bool :=
  a.type = b.type && a.contentType = b.contentType && a.payload.same b.payload

/-- The key of the payload in JSON. -/
def jsonKey (u : UserMeta) : String :=
  if u.payload.kind = .binary then base64Tag else u.type.text

/-- The payload in JSON, under its key. -/
def toJson (u : UserMeta) : Except EnvelopeError Json :=
  match u.payload with
  | .binary b => .ok (.string b.text)
  | p => p.toJson

end UserMeta

/-- The metadata part of an envelope. -/
structure Meta where
  dataType : DataType
  contentType : MediaType
  user : Option UserMeta

namespace Meta

/-- Equality of metadata parts. -/
def same (a b : Meta) : Bool :=
  a.dataType = b.dataType && a.contentType = b.contentType &&
    match a.user, b.user with
    | none, none => true
    | some u, some v => u.same v
    | _, _ => false

/-- The types without the payload. -/
def system (m : Meta) : SystemMeta where
  dataType := m.dataType
  contentType := m.contentType
  user := m.user.map fun u => (u.type, u.contentType)

/-- The part in JSON. -/
def toJson (m : Meta) : Except EnvelopeError Json :=
  match m.user with
  | none => .ok m.system.toJson
  | some u => do
    let payload ← u.toJson
    -- No admitted type is called like one of the keys before it.
    return .object (Json.insert u.jsonKey payload m.system.members)

/-- Reads the payload of the metadata from JSON. -/
def readPayload (v : Json) (t : DataType) (m : MediaType) : Except EnvelopeError Payload :=
  if PayloadKind.ofMediaType m = .binary then
    match v.get? base64Tag with
    | some b => (stringOf base64Tag b).bind readBase64
    | none => .error (.missingField base64Tag)
  else
    match v.get? t.text with
    | some raw => Payload.ofJson raw m metaTypeKey
    | none => .error (.invalidField metaTypeKey (.noPayload t.text))

/-- Reads the part from JSON. -/
def ofJson (v : Json) : Except EnvelopeError Meta := do
  let s ← SystemMeta.ofJson v
  match s.user with
  | none => return { dataType := s.dataType, contentType := s.contentType, user := none }
  | some (t, m) =>
    let payload ← readPayload v t m
    let u ← UserMeta.ofParts t m payload
    return { dataType := s.dataType, contentType := s.contentType, user := some u }

/-- An element with text. -/
def textElement (name text : String) : Xml.Node :=
  (Xml.Node.named name).withText text

/-- The part in XML. -/
def toXml (m : Meta) : Xml.Node :=
  let n := ((Xml.Node.named metadataField).withChild (textElement dataTypeKey m.dataType.text)).withChild
    (textElement dataContentTypeKey m.contentType.print)
  match m.user with
  | none => n
  | some u =>
    ((n.withChild (textElement metaTypeKey u.type.text)).withChild
      (textElement metaContentTypeKey u.contentType.print)).withChild
      ((Xml.Node.named metaPayloadKey).push u.payload.toContent)

/-- The text of a required element. -/
def requiredText (n : Xml.Node) (name : String) : Except EnvelopeError String :=
  match n.child? name with
  | some e => .ok e.text
  | none => .error (.missingField name)

/-- Reads the metadata from XML, if there is any. -/
def readUser (n : Xml.Node) : Except EnvelopeError (Option UserMeta) :=
  match n.child? metaTypeKey with
  | none => .ok none
  | some e => do
    let t ← readType e.text
    let m ← readContentType (← requiredText n metaContentTypeKey)
    match n.child? metaPayloadKey with
    | none => throw (.missingField metaPayloadKey)
    | some container =>
      let payload ← Payload.ofXml container m metaPayloadKey
      let u ← UserMeta.ofParts t m payload
      return some u

/-- Reads the part from XML. -/
def ofXml (n : Xml.Node) : Except EnvelopeError Meta := do
  let dataType ← readType (← requiredText n dataTypeKey)
  let contentType ← readContentType (← requiredText n dataContentTypeKey)
  let user ← readUser n
  return { dataType, contentType, user }

end Meta

end EventWire

import EventWire.Codec.Error
import EventWire.Payload.Basic

/-!
# Why envelopes cannot be written or read

A field can be missing or not be what it should be, a payload can be of another
kind than its content type, and every part can fail in its own way.
-/

namespace EventWire

/-- What is wrong with a field. -/
inductive FieldFault where
  | notObject
  | notString
  | notArray
  | noElement
  | unexpectedElement (name : String)
  | reservedKey (key : String)
  | binaryOnly (key : String)
  | noPayload (key : String)
  deriving DecidableEq

/-- The fault in words. -/
def FieldFault.message : FieldFault → String
  | .notObject => "expected an object"
  | .notString => "expected a string"
  | .notArray => "expected an array"
  | .noElement => "expected an XML element"
  | .unexpectedElement name => s!"unexpected element <{name}>"
  | .reservedKey key => s!"'{key}' is a reserved envelope key"
  | .binaryOnly key => s!"'{key}' names binary metadata only"
  | .noPayload key => s!"no payload under '{key}'"

/-- Why an envelope cannot be written or read. -/
inductive EnvelopeError where
  | missingField (field : String)
  | invalidField (field : String) (fault : FieldFault)
  | payloadMismatch (kind : PayloadKind) (contentType : MediaType)
  | base64
  | json
  | id (e : IdError)
  | mediaType (e : MediaTypeError)
  | charset (e : CharsetError)
  | xml (e : Xml.XmlError)
  | serialization (e : SerializationError)
  deriving DecidableEq

namespace EnvelopeError

/-- The error in words, if its text is fixed. -/
def message? : EnvelopeError → Option String
  | .missingField field => some s!"missing field '{field}'"
  | .invalidField field fault => some s!"invalid field '{field}': {fault.message}"
  | .payloadMismatch kind contentType =>
    some s!"{kind.label} payload cannot be carried as '{contentType.print}'"
  | .base64 => none
  | .json => none
  | .id e => e.message?
  | .mediaType e => some e.message
  | .charset e => some e.message
  | .xml e => e.message?.map fun m => s!"invalid XML envelope: {m}"
  | .serialization e => e.message?

/-- True when the text of an envelope or one of its fields cannot be read. -/
def isMalformed : EnvelopeError → Bool
  | .missingField _ => true
  | .invalidField _ _ => true
  | .base64 => true
  | .json => true
  | .xml _ => true
  | .mediaType _ => true
  | .serialization e => e.isMalformed
  | .payloadMismatch _ _ => false
  | .id _ => false
  | .charset _ => false

end EnvelopeError

end EventWire

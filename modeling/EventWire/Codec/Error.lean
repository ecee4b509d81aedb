import EventWire.Class.Basic
import EventWire.MediaType.Printer
import EventWire.Name
import EventWire.Xml.Document
import EventWire.Xml.Finding

/-!
# Why values cannot be written or read

Looking up what is registered, the types of values, the charset, the text itself,
findings of validation and the steps of the codecs can all fail. `isLookupMiss`
tells failures of the configuration from others, `isMalformed` those that the bytes
are to blame for.
-/

namespace EventWire

/-- The format of a malformed input. -/
inductive Format where
  | json
  | xml
  | base64
  deriving DecidableEq

/-- The format in words. -/
def Format.label : Format → String
  | .json => "json"
  | .xml => "xml"
  | .base64 => "base64"

/-- The part that expects something of a value or of a media type. -/
inductive CodecName where
  | json
  | text
  | binary
  | typedJson
  | xml
  | registry
  deriving DecidableEq

/-- The name in words. -/
def CodecName.label : CodecName → String
  | .json => "json"
  | .text => "text"
  | .binary => "binary"
  | .typedJson => "typed-json"
  | .xml => "xml"
  | .registry => "registry"

/-- Why an input is malformed: a fault of XML, or the format as such. -/
inductive InputFault where
  | xml (e : Xml.XmlError)
  | format
  deriving DecidableEq

/-- The step at which a codec fails. -/
inductive CodecFault where
  | xml (e : Xml.XmlError)
  | adapter (reason : String)
  | mapping (e : ClassError)
  deriving DecidableEq

/-- Why a value cannot be written or read. -/
inductive SerializationError where
  | serializerNotFound (type : DataType)
  | deserializerNotFound (type : DataType) (mediaType : MediaType)
  | defaultNotFound (type : DataType)
  | classNotFound (type : DataType)
  | typeMismatch (codec : CodecName) (expected : String)
  | notAssignable (type : DataType) (label : String)
  | unsupportedMediaType (codec : CodecName) (mediaType : MediaType)
  | malformed (format : Format) (fault : InputFault)
  | validation (finding : Xml.Finding)
  | codecFailed (codec : CodecName) (fault : CodecFault)
  | charset (e : CharsetError)
  deriving DecidableEq

/-- The fault in words, if its text is fixed. -/
def InputFault.message? : InputFault → Option String
  | .xml e => e.message?
  | .format => none

/-- The fault in words, if its text is fixed. -/
def CodecFault.message? : CodecFault → Option String
  | .xml e => e.message?
  | .adapter reason => some reason
  | .mapping e => e.message?

namespace SerializationError

/-- The error in words, if its text is fixed. -/
def message? : SerializationError → Option String
  | .serializerNotFound t => some s!"no serializer registered for type '{t.text}'"
  | .deserializerNotFound t m =>
    some s!"no deserializer registered for type '{t.text}' and mime type '{m.print}'"
  | .defaultNotFound t => some s!"no default mime type configured for type '{t.text}'"
  | .classNotFound t => some s!"no class registered for type '{t.text}'"
  | .typeMismatch codec expected => some s!"{codec.label} codec expected {expected}"
  | .notAssignable t label =>
    some s!"value is not assignable to {label}, the class registered for type '{t.text}'"
  | .unsupportedMediaType codec m =>
    some s!"{codec.label} codec does not support mime type '{m.print}'"
  | .malformed format fault => fault.message?.map fun m => s!"malformed {format.label} input: {m}"
  | .validation f => some s!"XML validation failed ({f.severity.label}): {f.message}"
  | .codecFailed codec fault => fault.message?.map fun m => s!"{codec.label} serialization failed: {m}"
  | .charset e => some e.message

/-- True when something was not registered. -/
def isLookupMiss : SerializationError → Bool
  | .serializerNotFound _ => true
  | .deserializerNotFound _ _ => true
  | .defaultNotFound _ => true
  | .classNotFound _ => true
  | _ => false

/-- True when the bytes are to blame. -/
def isMalformed : SerializationError → Bool
  | .malformed _ _ => true
  | .charset (.invalidInput _ _) => true
  | _ => false

end SerializationError

end EventWire

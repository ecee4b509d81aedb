import EventWire.Codec.Basic
import EventWire.Xml.Printer

/-!
# Writing and reading with codecs

`Codec.marshal` writes a value as bytes, `Codec.unmarshal` reads bytes of a media
type, or passes on a value that is of the codec's own form. The charset of the
media type is used for reading, and the codec's own where it names none.
-/

namespace EventWire

/-- Encodes text. -/
def encodeText (c : Charset) (s : String) : Except SerializationError Bytes :=
  (c.encode s).mapError .charset

/-- Decodes bytes in the charset of a media type. -/
def decodeText (m : MediaType) (fallback : Charset) (bs : Bytes) :
    Except SerializationError (Charset × String) := do
  let c ← (m.charsetOr fallback).mapError .charset
  let s ← (c.decode bs).mapError .charset
  return (c, s)

namespace XmlCodec

/-- A fault of XML that is to blame on the input. -/
def inputFault (e : Xml.XmlError) : SerializationError :=
  .malformed .xml (.xml e)

/-- A fault in a step of the codec. -/
def stepFault (f : CodecFault) : SerializationError :=
  .codecFailed .xml f

/-- What the validator finds. -/
def validate (x : XmlCodec) (root : Xml.Node) : List Xml.Finding :=
  match x.validator with
  | some v => v root
  | none => []

/-- The tree of a value before adapters. -/
def toTree (x : XmlCodec) (v : Value) (t : DataType) : Except SerializationError Xml.Node :=
  match v with
  | .tree n => .ok n
  | v => do
    let c ← x.classes.find t
    if c.isInstance v then
      let text ← (c.toXml v (c.xmlRoot.getD t.text)).mapError fun e => stepFault (.mapping e)
      (Xml.Node.parse text).mapError fun e => stepFault (.xml e)
    else throw (.notAssignable t c.label)

/-- The tree of a value as it goes over the wire. -/
def outwardTree (x : XmlCodec) (v : Value) (t : DataType) :
    Except SerializationError Xml.Node := do
  let n ← x.toTree v t
  (Xml.Adapter.applyOutward x.adapters n).mapError fun e => stepFault (.adapter e)

/-- The encoding to declare. -/
def declaration (x : XmlCodec) : Option String :=
  if x.fragment then none else some x.charset.name

/-- Writes a value. -/
def marshal (x : XmlCodec) (v : Value) (t : DataType) : Except SerializationError Bytes := do
  let n ← x.outwardTree v t
  -- The tree is looked at after the adapters have changed it.
  x.policy.review (x.validate n)
  let s ← (Xml.writeDocument n x.declaration).mapError inputFault
  encodeText x.charset s

/-- The finding about a declared encoding other than the one that was used. -/
def encodingFindings (declared : Option String) (used : Charset) : List Xml.Finding :=
  match declared with
  | none => []
  | some name =>
    if (Charset.ofName name).toOption = some used then []
    else [{
      severity := .error
      message := s!"declared encoding '{name}' does not match {used.name}" }]

/-- The instance that a tree stands for. -/
def ofTree (x : XmlCodec) (n : Xml.Node) (t : DataType) : Except SerializationError Value := do
  let n ← (Xml.Adapter.applyInward x.adapters n).mapError fun e => stepFault (.adapter e)
  let c ← x.classes.find t
  let s ← n.write.mapError inputFault
  (c.ofXml s).mapError fun e => stepFault (.mapping e)

/-- Reads bytes. -/
def readBytes (x : XmlCodec) (bs : Bytes) (t : DataType) (m : MediaType) :
    Except SerializationError Value :=
  if m.isXml then do
    let (c, s) ← decodeText m x.charset bs
    let document ← (Xml.Document.parse s).mapError inputFault
    -- The tree is looked at before the adapters have changed it.
    x.policy.review (encodingFindings document.declared c ++ x.validate document.root)
    x.ofTree document.root t
  else .error (.unsupportedMediaType .xml m)

/-- Passes on a tree or an instance of the class. -/
def acceptNative (x : XmlCodec) (v : Value) (t : DataType) : Except SerializationError Value :=
  match v with
  | .tree n => .ok (.tree n)
  | v => do
    let c ← x.classes.find t
    if c.isInstance v then return v
    throw (.typeMismatch .xml "an XML node or an instance of the registered class")

end XmlCodec

namespace Codec

/-- The JSON tree of a text. -/
def readJson (s : String) : Except SerializationError Value :=
  match Json.parse? s with
  | some v => .ok (.json v)
  | none => .error (.malformed .json .format)

/-- What the binary codec takes. -/
def binaryForm : String := "bytes or a base64 payload"

/-- Writes an instance of a class as JSON. -/
def marshalInstance (classes : ClassTable) (charset : Charset) (v : Value) (t : DataType) :
    Except SerializationError Bytes := do
  let c ← classes.find t
  if c.isInstance v then
    let text ← (c.toJson v).mapError fun e => .codecFailed .typedJson (.mapping e)
    encodeText charset text
  else throw (.notAssignable t c.label)

/-- Writes a value as bytes. -/
def marshal (codec : Codec) (v : Value) (t : DataType) : Except SerializationError Bytes :=
  match codec, v with
  | .json c, .json j =>
    if j.isStructured then encodeText c j.print
    else .error (.typeMismatch .json "a JSON object or array")
  | .json _, _ => .error (.typeMismatch .json "a JSON object or array")
  | .text c, .text s => encodeText c s
  | .text c, .literal s => encodeText c s
  | .text _, _ => .error (.typeMismatch .text "a string")
  | .binary _, .bytes bs => .ok bs
  | .binary _, .base64 p =>
    match p.content? with
    | some bs => .ok bs
    | none => .error (.malformed .base64 .format)
  | .binary _, _ => .error (.typeMismatch .binary binaryForm)
  | .typedJson classes c, v => marshalInstance classes c v t
  | .xml x, v => x.marshal v t

/-- Reads an instance of a class from JSON, or passes one on. -/
def unmarshalInstance (classes : ClassTable) (charset : Charset) (input : Input) (t : DataType)
    (m : MediaType) : Except SerializationError Value := do
  let c ← classes.find t
  match input with
  | .native v =>
    if c.isInstance v then return v
    match v with
    | .json j => (c.ofJsonValue j).mapError fun _ => .malformed .json .format
    | _ => throw (.typeMismatch .typedJson "an instance of the registered class or a JSON value")
  | .bytes bs =>
    if m.isJson then
      let (_, s) ← decodeText m charset bs
      (c.ofJson s).mapError fun _ => .malformed .json .format
    else throw (.unsupportedMediaType .typedJson m)

/-- Reads bytes of a media type, or passes on a value of the codec's own form. -/
def unmarshal (codec : Codec) (input : Input) (t : DataType) (m : MediaType) :
    Except SerializationError Value :=
  match codec, input with
  | .json _, .native (.json j) => .ok (.json j)
  | .json _, .native _ => .error (.typeMismatch .json "a JSON value")
  | .json c, .bytes bs =>
    if m.isJson then do
      let (_, s) ← decodeText m c bs
      readJson s
    else .error (.unsupportedMediaType .json m)
  | .text _, .native (.text s) => .ok (.text s)
  | .text _, .native _ => .error (.typeMismatch .text "a string")
  | .text c, .bytes bs =>
    if m.isText then do
      let (_, s) ← decodeText m c bs
      return .text s
    else .error (.unsupportedMediaType .text m)
  | .binary _, .native (.bytes bs) => .ok (.bytes bs)
  | .binary _, .native (.base64 p) => .ok (.base64 p)
  | .binary _, .native _ => .error (.typeMismatch .binary binaryForm)
  | .binary _, .bytes bs => .ok (.bytes bs)
  | .typedJson classes c, input => unmarshalInstance classes c input t m
  | .xml x, .native v => x.acceptNative v t
  | .xml x, .bytes bs => x.readBytes bs t m

end Codec

end EventWire

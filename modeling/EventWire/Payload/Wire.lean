import EventWire.Envelope.Error
import EventWire.Json.Printer
import EventWire.Json.Source
import EventWire.Xml.Printer

/-!
# Payloads as bytes, in JSON and in XML

As bytes, a payload is encoded in the charset of its content type, or in UTF-8. In
a JSON envelope, JSON stands for itself, text and XML are strings, and bytes are
base64 text under a key of their own. In an XML envelope, JSON and text are CDATA,
XML is an element, and bytes are base64 text in an element of their own.
-/

namespace EventWire

/-- The key and element of base64 text. -/
def base64Tag : String := "Base64"

/-- The text of a JSON string in a field. -/
def stringOf (field : String) (v : Json) : Except EnvelopeError String :=
  match v with
  | .string s => .ok s
  | _ => .error (.invalidField field .notString)

/-- Base64 text as a payload; it must decode. -/
def readBase64 (s : String) : Except EnvelopeError Payload :=
  match (Base64.ofText s).bytes? with
  | (some _, p) => .ok (.binary p)
  | (none, _) => .error .base64

namespace Payload

/-- Refuses a content type of another kind. -/
def check (p : Payload) (m : MediaType) : Except EnvelopeError Unit :=
  if p.fits m then .ok () else .error (.payloadMismatch p.kind m)

/-- The charset of a content type. -/
def charsetOf (m : MediaType) : Except EnvelopeError Charset :=
  (m.charsetOr .utf8).mapError .charset

/-! ## Bytes -/

/-- The payload of text of a kind other than binary. -/
def ofText (kind : PayloadKind) (s : String) : Except EnvelopeError Payload :=
  match kind with
  | .json =>
    match Json.parse? s with
    | some v => .ok (.json v)
    | none => .error .json
  | .xml =>
    match Xml.Node.parse s with
    | .ok n => .ok (.xml n)
    | .error e => .error (.xml e)
  | _ => .ok (.text s)

/-- Reads a payload from bytes. -/
def fromBytes (bs : Bytes) (m : MediaType) : Except EnvelopeError Payload :=
  let kind := PayloadKind.ofMediaType m
  if kind = .binary then .ok (.ofBytes bs)
  else do
    let c ← charsetOf m
    let s ← (c.decode bs).mapError .charset
    ofText kind s

/-- Encodes text in the charset of a content type. -/
def encodeAs (m : MediaType) (s : String) : Except EnvelopeError Bytes := do
  let c ← charsetOf m
  (c.encode s).mapError .charset

/-- Writes a payload as bytes. -/
def toBytes (p : Payload) (m : MediaType) : Except EnvelopeError Bytes := do
  p.check m
  match p with
  | .binary b =>
    match b.content? with
    | some bs => return bs
    | none => throw .base64
  | .json v => encodeAs m v.print
  | .xml n =>
    match n.write with
    | .ok s => encodeAs m s
    | .error e => throw (.xml e)
  | .text s => encodeAs m s

/-! ## JSON envelopes -/

/-- The payload in a JSON envelope. -/
def toJson (p : Payload) : Except EnvelopeError Json :=
  match p with
  | .json v => .ok v
  | .text s => .ok (.string s)
  | .xml n =>
    match n.write with
    | .ok s => .ok (.string s)
    | .error e => .error (.xml e)
  | .binary b => .ok (.object [(base64Tag, .string b.text)])

/-- Reads a payload of a content type from a field of a JSON envelope. -/
def ofJson (v : Json) (m : MediaType) (field : String) : Except EnvelopeError Payload :=
  match PayloadKind.ofMediaType m with
  | .json => .ok (.json v)
  | .binary =>
    match v.get? base64Tag with
    | some b => (stringOf base64Tag b).bind readBase64
    | none => .error (.missingField base64Tag)
  | kind => (stringOf field v).bind (ofText kind)

/-! ## XML envelopes -/

/-- The payload as content of an element of an XML envelope. -/
def toContent (p : Payload) : Xml.Content :=
  match p with
  | .json v => .cdata v.print
  | .text s => .cdata s
  | .xml n => n.toContent
  | .binary b => ((Xml.Node.named base64Tag).withText b.text).toContent

/-- Reads a payload of a content type from an element of an XML envelope. -/
def ofXml (parent : Xml.Node) (m : MediaType) (field : String) : Except EnvelopeError Payload :=
  match PayloadKind.ofMediaType m with
  | .json => ofText .json parent.text
  | .text => .ok (.text parent.text)
  | .xml =>
    match parent.elements with
    | n :: _ => .ok (.xml n)
    | [] => .error (.invalidField field .noElement)
  | .binary =>
    match parent.child? base64Tag with
    | some e => readBase64 e.text
    | none => .error (.missingField base64Tag)

end Payload

end EventWire

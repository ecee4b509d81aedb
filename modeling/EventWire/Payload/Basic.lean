import EventWire.MediaType.Basic
import EventWire.Value

/-!
# Payloads

The content of an event or of its metadata is JSON, XML, text or bytes, and a
content type says which (`PayloadKind.ofMediaType`). A payload may only be carried
under a content type of its kind.
-/

namespace EventWire

/-- What a payload is. -/
inductive PayloadKind where
  | json
  | xml
  | text
  | binary
  deriving DecidableEq

namespace PayloadKind

/-- The kind in words. -/
def label : PayloadKind → String
  | .json => "JSON"
  | .xml => "XML"
  | .text => "text"
  | .binary => "binary"

/-- The kind that a content type stands for; all that is not known is binary. -/
def ofMediaType (m : MediaType) : PayloadKind :=
  if m.isJson then .json else if m.isXml then .xml else if m.isText then .text else .binary

end PayloadKind

/-- A payload. -/
inductive Payload where
  | json (v : Json)
  | xml (n : Xml.Node)
  | text (s : String)
  | binary (p : Base64)
  deriving Inhabited

namespace Payload

/-- The kind of a payload. -/
def kind : Payload → PayloadKind
  | .json _ => .json
  | .xml _ => .xml
  | .text _ => .text
  | .binary _ => .binary

/-- A payload of bytes. -/
def ofBytes (bs : Bytes) : Payload :=
  .binary (.ofBytes bs)

/-- Payloads are the same when JSON agrees up to the order of members and all else
agrees as it is. -/
def same : Payload → Payload → Bool
  | .json a, .json b => a.same b
  | .xml a, .xml b => a = b
  | .text a, .text b => a = b
  | .binary a, .binary b => a.same b
  | _, _ => false

/-- True when the payload may be carried under a content type. -/
def fits (p : Payload) (m : MediaType) : Bool :=
  PayloadKind.ofMediaType m = p.kind

/-- The payload as a value. -/
def toValue : Payload → Value
  | .json v => .json v
  | .xml n => .tree n
  | .text s => .text s
  | .binary p => .base64 p

/-- The payload that a value is, if it is one. -/
def ofValue? : Value → Option Payload
  | .json v => some (.json v)
  | .tree n => some (.xml n)
  | .text s => some (.text s)
  | .base64 p => some (.binary p)
  | .bytes bs => some (.ofBytes bs)
  | .literal _ => none
  | .integer _ => none
  | .record _ => none
  | .pairs _ => none
  | .other _ _ => none

theorem ofValue?_toValue (p : Payload) : ofValue? p.toValue = some p := by
  cases p <;> rfl

end Payload

end EventWire

import EventWire.Codec.Policy
import EventWire.Registry.Table
import EventWire.Xml.Adapter

/-!
# Codecs

A codec writes values of some type as bytes of one media type, and reads bytes of
such media types, or values that are already of its own form. There are five: JSON
trees, texts, bytes, JSON bound to classes, and XML bound to classes.

An XML codec can be told to report another XML media type; its charset is always
the one that its media type names, if it names one (`XmlCodec.agrees`).
-/

namespace EventWire

/-- The classes of types of payloads. -/
abbrev ClassTable := Table PayloadClass

/-- The class of a type. -/
def ClassTable.find (classes : ClassTable) (t : DataType) :
    Except SerializationError PayloadClass :=
  match classes.get? t with
  | some c => .ok c
  | none => .error (.classNotFound t)

/-- A codec for XML. -/
structure XmlCodec where
  classes : ClassTable
  mediaType : MediaType
  charset : Charset
  fragment : Bool
  adapters : List Xml.Adapter
  validator : Option Xml.Validator
  policy : Policy
  isXml : mediaType.isXml = true
  agrees : mediaType.charsetOr charset = .ok charset

theorem MediaType.isXml_xml (c : Charset) : (MediaType.xml c).isXml = true := by
  cases c <;> decide +kernel

theorem MediaType.charsetOr_xml (c d : Charset) : (MediaType.xml c).charsetOr d = .ok c := by
  cases c <;> rfl

/-- What a media type says about the charset does not depend on the fallback once
the answer is the fallback. -/
theorem MediaType.charsetOr_of_charsetOr {m : MediaType} {c d : Charset}
    (h : m.charsetOr c = .ok d) : m.charsetOr d = .ok d := by
  unfold charsetOr at *
  generalize m.charset? = r at *
  match r, h with
  | .ok none, _ => rfl
  | .ok (some x), h => simpa [Except.map] using h

namespace XmlCodec

/-- The codec with the default settings: whole documents of `application/xml` in
UTF-8, without adapters, and strict about findings. -/
def new (classes : ClassTable) : XmlCodec where
  classes
  mediaType := .xml .utf8
  charset := .utf8
  fragment := false
  adapters := []
  validator := none
  policy := Policy.strict
  isXml := MediaType.isXml_xml .utf8
  agrees := MediaType.charsetOr_xml .utf8 .utf8

/-- Writes `application/xml` in a charset. -/
def withCharset (x : XmlCodec) (c : Charset) : XmlCodec :=
  { x with
    mediaType := .xml c
    charset := c
    isXml := MediaType.isXml_xml c
    agrees := MediaType.charsetOr_xml c c }

/-- Reports another XML media type, and takes the charset that it names. -/
def withMediaType (x : XmlCodec) (m : MediaType) : Except SerializationError XmlCodec :=
  if isXml : m.isXml = true then
    match h : m.charsetOr x.charset with
    | .ok c =>
      .ok { x with
        mediaType := m
        charset := c
        isXml
        agrees := MediaType.charsetOr_of_charsetOr h }
    | .error e => .error (.charset e)
  else .error (.unsupportedMediaType .xml m)

/-- Leaves the declaration out, or puts it in. -/
def withFragment (x : XmlCodec) (fragment : Bool) : XmlCodec :=
  { x with fragment }

/-- Adds an adapter after those that are there. -/
def withAdapter (x : XmlCodec) (a : Xml.Adapter) : XmlCodec :=
  { x with adapters := x.adapters ++ [a] }

/-- Sets the validator. -/
def withValidator (x : XmlCodec) (v : Xml.Validator) : XmlCodec :=
  { x with validator := some v }

/-- Sets what to do about findings. -/
def withPolicy (x : XmlCodec) (p : Policy) : XmlCodec :=
  { x with policy := p }

end XmlCodec

/-- A codec. -/
inductive Codec where
  | json (charset : Charset)
  | text (charset : Charset)
  | binary (mediaType : MediaType)
  | typedJson (classes : ClassTable) (charset : Charset)
  | xml (x : XmlCodec)

/-- What a codec reads. -/
inductive Input where
  | bytes (bs : Bytes)
  | native (v : Value)

/-- The input in a diagnostic. -/
def Input.debugText : Input → String
  | .bytes bs => s!"Bytes({bs.length})"
  | .native _ => "Native(..)"

namespace Codec

/-- The media type of what the codec writes. -/
def mediaType : Codec → MediaType
  | .json c => .json c
  | .text c => .plainText c
  | .binary m => m
  | .typedJson _ c => .json c
  | .xml x => x.mediaType

end Codec

end EventWire

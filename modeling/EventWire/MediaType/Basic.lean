import EventWire.Charset
import EventWire.MediaType.Token

/-!
# Media types

A media type is a type and a subtype with a version of the schema, an encoding
and further parameters. Values are arbitrary texts. Equality is equality of all
parts; `matchesEncoding` is the weaker relation that forgets version and further
parameters and the case of the encoding.
-/

namespace EventWire

/-- A media type. -/
structure MediaType where
  primary : Token
  sub : Token
  version : Option String
  encoding : Option String
  parameters : Parameters
  deriving DecidableEq

/-- The parts of a media type that must be tokens. -/
inductive MediaTypePart where
  | type
  | subtype
  | parameterName
  deriving DecidableEq

/-- The part in words. -/
def MediaTypePart.label : MediaTypePart → String
  | .type => "type"
  | .subtype => "subtype"
  | .parameterName => "parameter name"

/-- Why parts or a text make no media type. -/
inductive MediaTypeError where
  | empty
  | missingSubtype (base : String)
  | invalidToken (part : MediaTypePart) (value : String)
  | malformedParameter (segment : String)
  | unterminatedQuote (text : String)
  | reservedParameter (name : String)
  | duplicateParameter (name : String)
  deriving DecidableEq

/-- The error in words. -/
def MediaTypeError.message : MediaTypeError → String
  | .empty => "mime type cannot be empty"
  | .missingSubtype base => s!"mime type '{base}' is missing the subtype"
  | .invalidToken part value => s!"invalid {part.label} '{value}' in mime type"
  | .malformedParameter segment => s!"malformed mime type parameter '{segment}'"
  | .unterminatedQuote text => s!"unterminated quoted value in mime type '{text}'"
  | .reservedParameter name =>
    s!"parameter '{name}' is reserved and must be set through its dedicated argument"
  | .duplicateParameter name => s!"duplicate mime type parameter '{name}'"

namespace MediaType

/-- Reads a token, regardless of case and of blanks around it. -/
def readToken (part : MediaTypePart) (s : String) : Except MediaTypeError Token :=
  let s := Text.trim s
  match Token.ofText? s with
  | some t => .ok t
  | none => .error (.invalidToken part s)

/-- Adds parameters one after the other. -/
def addParameters (p : Parameters) : List (String × String) → Except MediaTypeError Parameters
  | [] => .ok p
  | (name, value) :: rest => do
    let key ← readToken .parameterName name
    if h : isReservedName key.text = false then
      match p.add? key value h with
      | some p => addParameters p rest
      | none => .error (.duplicateParameter key.text)
    else .error (.reservedParameter key.text)

/-- A media type from its parts. Version and encoding are not taken from among the
further parameters. -/
def ofParts (primary sub : String) (version encoding : Option String)
    (parameters : List (String × String)) : Except MediaTypeError MediaType := do
  let primary ← readToken .type primary
  let sub ← readToken .subtype sub
  let parameters ← addParameters .empty parameters
  return { primary, sub, version, encoding, parameters }

/-- The same media type with another version. -/
def withVersion (m : MediaType) (version : String) : MediaType :=
  { m with version := some version }

/-- The same media type with another encoding. -/
def withEncoding (m : MediaType) (encoding : String) : MediaType :=
  { m with encoding := some encoding }

/-! ## Well-known media types -/

/-- A media type without parameters. -/
def bare (primary sub : Token) : MediaType :=
  { primary, sub, version := none, encoding := none, parameters := .empty }

/-- `application` -/
def applicationToken : Token := ⟨"application", by decide +kernel, by decide +kernel⟩

/-- `text` -/
def textToken : Token := ⟨"text", by decide +kernel, by decide +kernel⟩

/-- `json` -/
def jsonToken : Token := ⟨"json", by decide +kernel, by decide +kernel⟩

/-- `xml` -/
def xmlToken : Token := ⟨"xml", by decide +kernel, by decide +kernel⟩

/-- `plain` -/
def plainToken : Token := ⟨"plain", by decide +kernel, by decide +kernel⟩

/-- `octet-stream` -/
def octetStreamToken : Token := ⟨"octet-stream", by decide +kernel, by decide +kernel⟩

/-- JSON in a charset. -/
def json (c : Charset) : MediaType :=
  (bare applicationToken jsonToken).withEncoding c.name

/-- XML in a charset. -/
def xml (c : Charset) : MediaType :=
  (bare applicationToken xmlToken).withEncoding c.name

/-- Plain text in a charset. -/
def plainText (c : Charset) : MediaType :=
  (bare textToken plainToken).withEncoding c.name

/-- Bytes. -/
def octetStream : MediaType :=
  bare applicationToken octetStreamToken

/-! ## Properties -/

/-- Type and subtype without parameters. -/
def base (m : MediaType) : String :=
  m.primary.text ++ "/" ++ m.sub.text

/-- A further parameter by its name, of any case. -/
def parameter? (m : MediaType) (name : String) : Option String :=
  m.parameters.find? name

/-- The charset that the encoding names, if there is an encoding. -/
def charset? (m : MediaType) : Except CharsetError (Option Charset) :=
  match m.encoding with
  | none => .ok none
  | some name => (Charset.ofName name).map some

/-- The charset that the encoding names, or `fallback` without an encoding. -/
def charsetOr (m : MediaType) (fallback : Charset) : Except CharsetError Charset :=
  m.charset?.map (·.getD fallback)

/-- True for `application/json`. -/
def isJson (m : MediaType) : Bool :=
  m.primary = applicationToken && m.sub = jsonToken

/-- True for `application/xml` and `text/xml`. -/
def isXml (m : MediaType) : Bool :=
  (m.primary = applicationToken || m.primary = textToken) && m.sub = xmlToken

/-- True for `text` types other than XML. -/
def isText (m : MediaType) : Bool :=
  m.primary = textToken && !m.isXml

/-- True when type and subtype agree. -/
def sameBase (a b : MediaType) : Bool :=
  a.primary = b.primary && a.sub = b.sub

/-- True when the base agrees and the encodings are absent from both or equal up
to case. -/
def matchesEncoding (a b : MediaType) : Bool :=
  let sameEncoding :=
    match a.encoding, b.encoding with
    | some x, some y => Text.sameIgnoringCase x y
    | none, none => true
    | _, _ => false
  a.sameBase b && sameEncoding

end MediaType

end EventWire

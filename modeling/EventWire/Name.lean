import EventWire.Text.Quoted
import EventWire.Text.Utf8

/-!
# Names

Types of payloads, types of events and streams go by names: any text that is not
empty, takes at most 1024 bytes of UTF-8 and holds no control character. The kind
of a name is part of its type, and since the rule is the same for every kind, a
name of one kind can be read as one of another (`Name.retag`).
-/

namespace EventWire

/-- What an identifier identifies. -/
inductive IdKind where
  | dataType
  | eventType
  | streamId
  | eventId
  deriving DecidableEq

/-- The kind in words. -/
def IdKind.label : IdKind → String
  | .dataType => "serialized data type"
  | .eventType => "event type"
  | .streamId => "stream id"
  | .eventId => "event id"

/-- Why a text is no identifier. -/
inductive IdError where
  | empty (kind : IdKind)
  | tooLong (kind : IdKind)
  | invalidCharacter (kind : IdKind) (value : String) (c : Char)
  | invalidUuid
  deriving DecidableEq

/-- The most bytes a name may take. -/
def maxNameSize : Nat := 1024

/-- The error in words; nothing for texts that are no UUIDs, which fail in many
ways. -/
def IdError.message? : IdError → Option String
  | .empty kind => some s!"{kind.label} cannot be empty"
  | .tooLong kind => some s!"{kind.label} exceeds maximum length of {maxNameSize} bytes"
  | .invalidCharacter kind value c =>
    some s!"invalid character {Text.quotedChar c} in {kind.label} '{value}'"
  | .invalidUuid => none

/-- True for texts that can be names. -/
def isName (s : String) : Bool :=
  s ≠ "" && Text.Utf8.size s ≤ maxNameSize && s.toList.all fun c => !Text.isControl c

/-- A name of the given kind. -/
structure Name (kind : IdKind) where
  text : String
  accepted : isName text = true
  deriving DecidableEq

/-- Name of a type of payload. -/
abbrev DataType := Name .dataType

/-- Name of a type of event. -/
abbrev EventType := Name .eventType

/-- Name of a stream of events. -/
abbrev StreamId := Name .streamId

namespace Name

/-- The first rule that a text breaks: not empty, not too long, no control
character. -/
def faultOf (kind : IdKind) (s : String) : IdError :=
  if s = "" then .empty kind
  else if maxNameSize < Text.Utf8.size s then .tooLong kind
  else .invalidCharacter kind s ((s.toList.find? Text.isControl).getD ' ')

/-- Checks a text as a name. -/
def ofText (kind : IdKind) (s : String) : Except IdError (Name kind) :=
  if h : isName s = true then .ok ⟨s, h⟩ else .error (faultOf kind s)

/-- The same name as one of another kind. -/
def retag {a : IdKind} (b : IdKind) (n : Name a) : Name b :=
  ⟨n.text, n.accepted⟩

theorem ofText_text {kind : IdKind} (n : Name kind) : ofText kind n.text = .ok n := by
  simp [ofText, n.accepted]

end Name

end EventWire

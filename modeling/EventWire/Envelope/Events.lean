import EventWire.Envelope.Event

/-!
# Several events

Envelopes can be written and read together, as an array in JSON or as the child
elements of one element in XML. Events in memory can be written together too.
-/

namespace EventWire

/-- Several envelopes. -/
abbrev Events := List Event

namespace Events

/-- The element of several events. -/
def element : String := "Events"

/-- The content type of the data that all events share, if there are any. -/
def commonContentType? : Events → Option MediaType
  | [] => none
  | first :: rest =>
    if rest.all fun e => e.contentType = first.contentType then some first.contentType else none

/-- Equality of lists of envelopes. -/
def same : Events → Events → Bool
  | [], [] => true
  | a :: as, b :: bs => a.same b && same as bs
  | _, _ => false

/-- The events in JSON. -/
def toJson (es : Events) : Except EnvelopeError Json :=
  (es.mapM Event.toJson).map .array

/-- Reads events from JSON. -/
def ofJson (v : Json) : Except EnvelopeError Events :=
  match v with
  | .array items => items.mapM Event.ofJson
  | _ => .error (.invalidField element .notArray)

/-- The events in XML. -/
def toXml (es : Events) : Xml.Node :=
  es.foldl (fun n e => n.withChild e.toXml) (Xml.Node.named element)

/-- Reads events from XML. -/
def ofXml (n : Xml.Node) : Except EnvelopeError Events := do
  Event.expectElement n element
  n.elements.mapM Event.ofXml

end Events

/-- Several events in memory. -/
abbrev DomainEvents := List DomainEvent

namespace DomainEvents

/-- The media type that the writers of all data and metadata agree on. -/
def commonMediaType (r : Registry Codec) (es : DomainEvents) :
    Except SerializationError (Option MediaType) :=
  r.commonMediaType (es.flatMap DomainEvent.types)

/-- The envelopes of all events. -/
def toEnvelopes (r : Registry Codec) (es : DomainEvents) : Except EnvelopeError Events :=
  es.mapM (Event.ofDomain r)

/-- All events as bytes. -/
def serialize (r : Registry Codec) (es : DomainEvents) :
    Except EnvelopeError (List SerializedEvent) :=
  es.mapM (DomainEvent.serialize r)

end DomainEvents

end EventWire

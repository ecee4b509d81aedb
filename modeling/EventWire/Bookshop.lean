import EventWire.Codec.Basic
import EventWire.Registry.Basic

/-!
# A bookshop

A small set of classes and codecs to try things with: books are added and removed,
there are notes, blobs and audit records. Names of classes in diagnostics begin with
a scope of the caller's choice.
-/

namespace EventWire.Bookshop

/-- Books added, as JSON of any shape. -/
def bookAdded : DataType := ⟨"BookAdded", by decide +kernel⟩

/-- Books added, as XML with attributes. -/
def bookAddedEvent : DataType := ⟨"BookAddedEvent", by decide +kernel⟩

/-- Books removed, as JSON of a class. -/
def bookRemoved : DataType := ⟨"BookRemoved", by decide +kernel⟩

/-- Notes, as text. -/
def note : DataType := ⟨"Note", by decide +kernel⟩

/-- Blobs, as bytes. -/
def blob : DataType := ⟨"Blob", by decide +kernel⟩

/-- Records of who did something, as JSON of any shape. -/
def audit : DataType := ⟨"Audit", by decide +kernel⟩

/-- A book that was added: its name and its author, both attributes in XML. -/
def bookAddedClass (scope : String) : PayloadClass :=
  .ofShape (scope ++ "BookAddedEvent")
    (.record [{ key := "@name", kind := .text }, { key := "@author", kind := .text }])

/-- A book that was removed: its name, and perhaps a reason. -/
def bookRemovedClass (scope : String) : PayloadClass :=
  .ofShape (scope ++ "BookRemoved")
    (.record [{ key := "name", kind := .text }, { key := "reason", kind := .optional false }])

/-- The classes of the bookshop. -/
def classes (scope : String) : ClassTable :=
  (Table.empty.insert bookAddedEvent ((bookAddedClass scope).withXmlRoot "book-added-event")).insert
    bookRemoved (bookRemovedClass scope)

/-- The codecs of the bookshop, one for each type. -/
def registry (scope : String) : Registry Codec :=
  let classes := classes scope
  let codecs : List (DataType × Codec) := [
    (bookAdded, .json .utf8),
    (audit, .json .utf8),
    (bookAddedEvent, .xml ((XmlCodec.new classes).withFragment true)),
    (bookRemoved, .typedJson classes .utf8),
    (note, .text .utf8),
    (blob, .binary .octetStream)]
  codecs.foldl (fun r (t, c) => r.addDefault t c) .empty

end EventWire.Bookshop

import EventWire.Class.XmlReader
import EventWire.Class.XmlWriter
import EventWire.Text.Quoted

/-!
# Payload classes

A class is a type of values with functions that write its values as JSON or XML and
read them back. Any such functions make a class as long as they read nothing but
values of its type. The types that have a shape are written and read by it
(`PayloadClass.ofShape`), JSON trees above all, and trees of XML are written by no
class.
-/

namespace EventWire

/-- Functions that write and read values. XML is written under the name of the root
element. -/
structure Converters where
  writeJson? : Value → Option String
  readJson? : String → Option Value
  ofJson? : Json → Option Value
  writeXml? : Value → String → Option String
  readXml? : String → Option Value

/-- What is read is of a type. -/
structure Converters.ReadOnly (c : Converters) (type : ValueType) : Prop where
  readJson : ∀ {s v}, c.readJson? s = some v → v.type = type
  ofJson : ∀ {j v}, c.ofJson? j = some v → v.type = type
  readXml : ∀ {s v}, c.readXml? s = some v → v.type = type

namespace Shape

/-- The functions of a shape and a name. -/
def converters (shape : Shape) (label : String) : Converters where
  writeJson? v := v.toJson?.map Json.print
  readJson? := shape.readJson? label
  ofJson? := shape.ofJson? label
  writeXml? := Value.toXml?
  readXml? := shape.readXml? label

theorem readOnly_converters (shape : Shape) (label : String) :
    (shape.converters label).ReadOnly (shape.type label) where
  readJson := type_of_readJson?
  ofJson := type_of_ofJson?
  readXml := type_of_readXml?

/-- The functions of a shape depend on its type only. -/
theorem converters_congr {a b : Shape} {label other : String}
    (h : a.type label = b.type other) : a.converters label = b.converters other := by
  cases a with
  | record fields =>
    cases b with
    | record others =>
      cases h
      rfl
    | _ => cases h
  | _ =>
    cases b with
    | record others => cases h
    | _ => cases h <;> rfl

theorem type_ne_tree (shape : Shape) (label : String) : shape.type label ≠ .tree := by
  cases shape <;> exact fun h => nomatch h

end Shape

/-- A class. The name is used in diagnostics, and the name of the root element when an
instance is written as XML. -/
structure PayloadClass extends Converters where
  label : String
  type : ValueType
  xmlRoot : Option String
  readOnly : toConverters.ReadOnly type
  shaped : ∀ {shape : Shape} {name}, type = shape.type name → toConverters = shape.converters name
  type_ne_tree : type ≠ .tree

/-- Why a class does not read or write something. -/
inductive ClassError where
  | notInstance (label : String)
  | unreadable
  | unwritable
  deriving DecidableEq

/-- The error in words; nothing where a text would depend on how the reader or
writer works. -/
def ClassError.message? : ClassError → Option String
  | .notInstance label => some s!"value is not a {label}"
  | .unreadable => none
  | .unwritable => none

namespace PayloadClass

/-- The class of the values of a shape, without a root element of its own. -/
def ofShape (label : String) (shape : Shape) : PayloadClass where
  toConverters := shape.converters label
  label
  type := shape.type label
  xmlRoot := none
  readOnly := shape.readOnly_converters label
  shaped := Shape.converters_congr
  type_ne_tree := shape.type_ne_tree label

/-- The same class with a root element. -/
def withXmlRoot (c : PayloadClass) (root : String) : PayloadClass :=
  { c with xmlRoot := some root }

/-- True for classes of one type with one root element. -/
def same (c d : PayloadClass) : Bool :=
  c.type = d.type && c.xmlRoot = d.xmlRoot

/-- True for values that are instances of the class. -/
def isInstance (c : PayloadClass) (v : Value) : Bool :=
  v.type = c.type

/-- Writes an instance as JSON text. -/
def toJson (c : PayloadClass) (v : Value) : Except ClassError String :=
  if c.isInstance v then
    match c.writeJson? v with
    | some s => .ok s
    | none => .error .unwritable
  else .error (.notInstance c.label)

/-- Reads an instance from JSON text. -/
def ofJson (c : PayloadClass) (text : String) : Except ClassError Value :=
  match c.readJson? text with
  | some v => .ok v
  | none => .error .unreadable

/-- Reads an instance from a JSON value. -/
def ofJsonValue (c : PayloadClass) (v : Json) : Except ClassError Value :=
  match c.ofJson? v with
  | some v => .ok v
  | none => .error .unreadable

/-- Writes an instance as XML text with a root element. -/
def toXml (c : PayloadClass) (v : Value) (root : String) : Except ClassError String :=
  if c.isInstance v then
    match c.writeXml? v root with
    | some s => .ok s
    | none => .error .unwritable
  else .error (.notInstance c.label)

/-- Reads an instance from XML text. -/
def ofXml (c : PayloadClass) (text : String) : Except ClassError Value :=
  match c.readXml? text with
  | some v => .ok v
  | none => .error .unreadable

/-- The class in a diagnostic. -/
def debugText (c : PayloadClass) : String :=
  let root :=
    match c.xmlRoot with
    | none => "None"
    | some r => s!"Some({Text.quoted r})"
  s!"PayloadClass \x7b type_name: {Text.quoted c.label}, xml_root: {root} \x7d"

end PayloadClass

end EventWire

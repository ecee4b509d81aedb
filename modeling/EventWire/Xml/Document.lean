import EventWire.Xml.Attributes
import EventWire.Xml.Escape
import EventWire.Xml.Event
import EventWire.Xml.Node

/-!
# Documents from events

`Document.ofEvents` builds the tree of a document with a stack of open elements.
Blank text is dropped, neighbouring CDATA sections become one child, and comments,
processing instructions and document types leave no trace. There must be exactly
one element at the top, and no text or CDATA beside it.
-/

namespace EventWire.Xml

/-- Why XML cannot be read or written. -/
inductive XmlError where
  | illFormed
  | attribute
  | content
  | invalidName (name : String)
  | missingRoot
  | multipleRoots
  | mismatchedEnd (expected found : String)
  deriving DecidableEq

/-- The error in words; nothing where a text would depend on how the reader
works. -/
def XmlError.message? : XmlError → Option String
  | .illFormed => none
  | .attribute => none
  | .content => none
  | .invalidName name => some s!"invalid XML name '{name}'"
  | .missingRoot => some "XML document has no root element"
  | .multipleRoots => some "XML document has more than one root element"
  | .mismatchedEnd expected found =>
    some s!"mismatched end tag: expected </{expected}>, found </{found}>"

/-- A document: the encoding it declares, and its root. -/
structure Document where
  declared : Option String
  root : Node
  deriving DecidableEq

/-- An element whose end has not come yet, with its children so far, latest
first. -/
structure OpenElement where
  name : String
  attributes : List (String × String)
  done : List Content
  deriving DecidableEq

/-- The element with the children it has. -/
def OpenElement.toNode (e : OpenElement) : Node :=
  { name := e.name, attributes := e.attributes, children := e.done.reverse }

/-- Adds CDATA, to the section before it if there is one. -/
def addCdata (s : String) : List Content → List Content
  | .cdata t :: done => .cdata (t ++ s) :: done
  | done => .cdata s :: done

/-- A document that is being read: open elements, innermost first. -/
structure Builder where
  declared : Option String
  stack : List OpenElement
  root : Option Node
  deriving DecidableEq

namespace Builder

/-- Nothing read yet. -/
def initial : Builder :=
  { declared := none, stack := [], root := none }

/-- Puts a finished element into its parent, or at the top. -/
def attach (b : Builder) (n : Node) : Except XmlError Builder :=
  match b.stack with
  | parent :: outer =>
    .ok { b with stack := { parent with done := n.toContent :: parent.done } :: outer }
  | [] => if b.root.isNone then .ok { b with root := some n } else .error .multipleRoots

/-- Adds to the children of the innermost open element. -/
def addContent (b : Builder) (f : List Content → List Content) : Except XmlError Builder :=
  match b.stack with
  | parent :: outer => .ok { b with stack := { parent with done := f parent.done } :: outer }
  | [] => .error .multipleRoots

/-- Reads attributes one after the other; no name may come twice. -/
def readAttributes (broken : Bool) (before : List (String × String)) :
    List (List Char × List Char) → Except XmlError (List (String × String))
  | [] => if broken then .error .attribute else .ok before
  | (name, value) :: rest =>
    let name := String.ofList name
    if before.any fun a => a.1 = name then .error .attribute
    else
      match unescape? value with
      | none => .error .content
      | some value => readAttributes broken (before ++ [(name, String.ofList value)]) rest

/-- The attributes of a tag. -/
def attributesOf (cs : List Char) : Except XmlError (List (String × String)) :=
  let raw := rawAttributes cs
  readAttributes raw.broken [] raw.items

/-- The encoding that a declaration names. What stands after it is not read. -/
def declaredEncoding (cs : List Char) : Except XmlError (Option String) :=
  let raw := rawAttributes cs
  match raw.items.find? fun a => a.1 = ['e', 'n', 'c', 'o', 'd', 'i', 'n', 'g'] with
  | some (_, value) => .ok (some (String.ofList value))
  | none => if raw.broken then .error .content else .ok none

/-- Takes one event in. -/
def step (b : Builder) : Event → Except XmlError Builder
  | .declaration attributes =>
    match declaredEncoding attributes with
    | .error e => .error e
    | .ok none => .ok b
    | .ok (some encoding) => .ok { b with declared := some encoding }
  | .start name attributes =>
    match attributesOf attributes with
    | .error e => .error e
    | .ok attributes =>
      .ok { b with stack := { name := String.ofList name, attributes, done := [] } :: b.stack }
  | .empty name attributes =>
    match attributesOf attributes with
    | .error e => .error e
    | .ok attributes => b.attach { name := String.ofList name, attributes, children := [] }
  | .close name =>
    let found := String.ofList name
    match b.stack with
    | [] => .error (.mismatchedEnd "" found)
    | e :: outer =>
      if e.name = found then { b with stack := outer }.attach e.toNode
      else .error (.mismatchedEnd e.name found)
  | .text raw =>
    match unescape? raw with
    | none => .error .content
    | some cs =>
      if Text.blankOnly cs then .ok b
      else b.addContent (.text (String.ofList cs) :: ·)
  | .cdata cs => b.addContent (addCdata (String.ofList cs))
  | .comment => .ok b
  | .instruction => .ok b
  | .doctype => .ok b
  | .fault => .error .illFormed

/-- Takes events in, one after the other. -/
def run (b : Builder) : List Event → Except XmlError Builder
  | [] => .ok b
  | event :: rest =>
    match b.step event with
    | .error e => .error e
    | .ok b => b.run rest

/-- The document, when nothing is open any more. -/
def finish (b : Builder) : Except XmlError Document :=
  match b.stack with
  | e :: _ => .error (.mismatchedEnd e.name "")
  | [] =>
    match b.root with
    | some root => .ok { declared := b.declared, root }
    | none => .error .missingRoot

end Builder

namespace Document

/-- The document of a list of events. -/
def ofEvents (es : List Event) : Except XmlError Document :=
  match Builder.initial.run es with
  | .error e => .error e
  | .ok b => b.finish

/-- Reads a document. -/
def parse (s : String) : Except XmlError Document :=
  ofEvents (events s.toList)

end Document

/-- Reads an element, whatever encoding is declared. -/
def Node.parse (s : String) : Except XmlError Node :=
  (Document.parse s).map (·.root)

end EventWire.Xml

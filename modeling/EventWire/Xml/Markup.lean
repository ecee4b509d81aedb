import EventWire.Xml.Escape
import EventWire.Xml.Event
import EventWire.Xml.Namespace

/-!
# Markup for reading values

Values are read from a view of XML that is looser than the tree: neighbouring
texts and CDATA sections are joined, blanks around a joined text are dropped unless
CDATA stands there, attributes stay as they are written, and a text with a broken
reference is kept as such, since nothing may ever read it. What follows the first
item of a text is not looked at. An item that is not wanted is passed over, and
little of it is read (`passedOver?`).
-/

namespace EventWire.Xml

/-- An item of content. A text that cannot be unescaped has no characters. -/
inductive Markup where
  | element (name attributes : List Char) (content : List Markup)
  | text (content : Option (List Char))
  deriving Inhabited

/-- A piece of content in sequence. -/
inductive Piece where
  | opening (name attributes : List Char)
  | closing
  | text (content : Option (List Char))
  | fault
  deriving DecidableEq

/-- Takes away what leaves no trace in values; an empty element is a start and an
end. -/
def plainEvents : List Event → List Event
  | [] => []
  | .empty name attributes :: rest =>
    .start name attributes :: .close name :: plainEvents rest
  | .comment :: rest => plainEvents rest
  | .instruction :: rest => plainEvents rest
  | .declaration _ :: rest => plainEvents rest
  | event :: rest => event :: plainEvents rest

/-- Drops the blanks before a text that does not follow another text. A text of
blanks alone goes as a whole. -/
def trimStarts : (fresh : Bool) → List Event → List Event
  | _, [] => []
  | true, .text raw :: rest =>
    match raw.dropWhile Text.isPlainBlank with
    | [] => trimStarts true rest
    | c :: cs => .text (c :: cs) :: trimStarts false rest
  | false, .text raw :: rest => .text raw :: trimStarts false rest
  | _, .cdata cs :: rest => .cdata cs :: trimStarts false rest
  | _, event :: rest => event :: trimStarts true rest

/-- Puts a part before what follows in the same text. -/
def joinText (part : Option (List Char)) : List Piece → List Piece
  | .text later :: rest =>
    .text (part.bind fun p => later.map (p ++ ·)) :: rest
  | pieces => .text part :: pieces

/-- True when no text begins the events. -/
def endsText : List Event → Bool
  | .text _ :: _ => false
  | .cdata _ :: _ => false
  | _ => true

/-- Joins texts; the blanks after the last part of a text are dropped. A document
type separates two texts and is no piece itself. -/
def piecesOf : List Event → List Piece
  | [] => []
  | .text raw :: rest =>
    if endsText rest then
      .text (unescape? (Text.dropEndWhile Text.isPlainBlank raw)) :: piecesOf rest
    else joinText (unescape? raw) (piecesOf rest)
  | .cdata cs :: rest =>
    if endsText rest then .text (some cs) :: piecesOf rest
    else joinText (some cs) (piecesOf rest)
  | .start name attributes :: rest => .opening name attributes :: piecesOf rest
  | .close _ :: rest => .closing :: piecesOf rest
  | .fault :: _ => [.fault]
  | _ :: rest => piecesOf rest

/-- An element that is still open, with its content so far, latest first. -/
structure OpenMarkup where
  name : List Char
  attributes : List Char
  done : List Markup

/-- Closes elements until the first one is complete. -/
def firstItem? : (stack : List OpenMarkup) → List Piece → Option Markup
  | _, [] => none
  | [], .text content :: _ => some (.text content)
  | e :: outer, .text content :: rest =>
    firstItem? ({ e with done := .text content :: e.done } :: outer) rest
  | stack, .opening name attributes :: rest =>
    firstItem? ({ name, attributes, done := [] } :: stack) rest
  | [], .closing :: _ => none
  | [e], .closing :: _ => some (.element e.name e.attributes e.done.reverse)
  | e :: parent :: outer, .closing :: rest =>
    firstItem? ({ parent with
      done := .element e.name e.attributes e.done.reverse :: parent.done } :: outer) rest
  | _, .fault :: _ => none

namespace Markup

/-- The first item of a text. -/
def ofText? (s : String) : Option Markup :=
  firstItem? [] (piecesOf (trimStarts true (plainEvents (events s.toList))))

/-- The part of a name after its first colon, or the whole of a name without
one. -/
def localName (name : List Char) : List Char :=
  match name.dropWhile fun c => c ≠ ':' with
  | [] => name
  | _ :: rest => rest

/-- The key of an element in a value. -/
def elementKey (name : List Char) : String :=
  String.ofList (localName name)

/-- The key of an attribute in a value: an at sign and the local name. Bindings of
namespaces stay whole. -/
def attributeKey (name : List Char) : String :=
  let whole := name = ['x', 'm', 'l', 'n', 's'] ∨ (boundPrefix? name).isSome
  String.ofList ('@' :: if whole then name else localName name)

/-- The key of text beside elements in a value. -/
def textKey : String := "$text"

/-- The attributes by their keys, as they are written. No name may come twice, and
what they bind must be allowed. -/
def attributes? (cs : List Char) : Option (List (String × List Char)) :=
  let raw := rawAttributes cs
  if raw.broken || !decide (raw.items.map (·.1)).Nodup || (bindings? cs).isNone then none
  else some (raw.items.map fun (name, value) => (attributeKey name, value))

/-- The text of an item: that of a text, or that of an element without child
elements. -/
def plainText? : Markup → Option String
  | .text content => content.map String.ofList
  | .element _ attributes content =>
    match bindings? attributes, content with
    | some _, [] => some ""
    | some _, [.text content] => content.map String.ofList
    | _, _ => none

/-- The scope once the next of some items is in view: the bindings of an element are
in force as soon as its start is seen. -/
def inView? (s : Scope) : List Markup → Option Scope
  | .element _ attributes _ :: _ => s.enter? attributes
  | _ => some s

/-- The scope after an item that is passed over. Of an element that is passed over
only the first text or child element is read, together with what comes into view
behind it, and the rest is skipped up to the end tag. Bindings that came into view
then stay in force, unless the end of their element came into view as well. -/
def passedOver? (s : Scope) : Markup → Option Scope
  | .text content => content.map fun _ => s
  | .element _ attributes content => do
    let inside ← s.enter? attributes
    match content with
    | [] => some s
    | .text none :: _ => none
    | [.text (some _)] => some s
    | .text (some _) :: rest => inView? inside rest
    | .element _ attributes content :: rest =>
      let deeper ← inside.enter? attributes
      let seen ← inView? deeper content
      let after := if content.isEmpty then inside else seen
      if rest.isEmpty then some after.leave else inView? after rest

/-- True for an element that has no value: it says so, or the element `outer` around
it does. The scope is the one with the element's first item in view. -/
def isNil? (s : Scope) (outer : List Char) : Markup → Option Bool
  | .text _ => some false
  | .element _ attributes content =>
    ((s.enter? attributes).bind (inView? · content)).map fun view =>
      view.isNil outer || view.isNil attributes

end Markup

end EventWire.Xml

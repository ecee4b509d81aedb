import EventWire.Xml.Attributes

/-!
# Namespaces

An attribute `xmlns:p` binds the prefix `p` to a namespace inside its element, and
the innermost binding of a prefix counts. A scope holds the bindings of the elements
that are open, and leaving an element drops those of the innermost. The prefixes
`xml` and `xmlns` have fixed namespaces, which no other prefix may have. An element
whose attribute `nil` of the namespace of instances is true has no value, whatever it
holds.
-/

namespace EventWire.Xml

/-- The name of a standard namespace, by its path. -/
def standardNamespace (path : String) : List Char :=
  "http:".toList ++ "//www.w3.org/".toList ++ path.toList

/-- The namespace of the prefix `xml`. -/
def xmlNamespace : List Char :=
  standardNamespace "XML/1998/namespace"

/-- The namespace of the prefix `xmlns`. -/
def bindingNamespace : List Char :=
  standardNamespace "2000/xmlns/"

/-- The namespace of attributes that speak about the instance they stand in. -/
def instanceNamespace : List Char :=
  standardNamespace "2001/XMLSchema-instance"

/-- The prefix that an attribute of this name binds. -/
def boundPrefix? : List Char → Option (List Char)
  | 'x' :: 'm' :: 'l' :: 'n' :: 's' :: ':' :: p => some p
  | _ => none

/-- True when a prefix may be bound to a namespace. -/
def mayBind (p space : List Char) : Bool :=
  if p = ['x', 'm', 'l'] then space = xmlNamespace
  else p ≠ ['x', 'm', 'l', 'n', 's'] && space ≠ xmlNamespace && space ≠ bindingNamespace

/-- The bindings among the attributes of a tag, latest first. A tag with a binding
that may not be has none; an empty prefix is bound to nothing. -/
def bindings? (attributes : List Char) : Option (List (List Char × List Char)) :=
  let found := (rawAttributes attributes).items.filterMap fun (name, space) =>
    (boundPrefix? name).map fun p => (p, space)
  if found.all fun (p, space) => mayBind p space then
    some (found.filter fun (p, _) => !p.isEmpty).reverse
  else none

/-- The bindings of the open elements, innermost first. -/
structure Scope where
  elements : List (List (List Char × List Char))
  deriving DecidableEq

namespace Scope

/-- The scope outside of all elements. -/
def empty : Scope := { elements := [] }

/-- The scope inside an element with these attributes. -/
def enter? (s : Scope) (attributes : List Char) : Option Scope :=
  (bindings? attributes).map fun found => { elements := found :: s.elements }

/-- The scope outside of the innermost element. -/
def leave (s : Scope) : Scope :=
  { elements := s.elements.tail }

/-- The namespace that a prefix is bound to. -/
def lookup? (s : Scope) (p : List Char) : Option (List Char) :=
  (s.elements.flatten.find? fun b => b.1 = p).map (·.2)

/-- True when an attribute says that its element has no value. -/
def saysNil (s : Scope) (name value : List Char) : Bool :=
  match name.dropWhile fun c => c ≠ ':' with
  | [':', 'n', 'i', 'l'] =>
    s.lookup? (name.takeWhile fun c => c ≠ ':') = some instanceNamespace &&
      (value = ['1'] || value = ['t', 'r', 'u', 'e'])
  | _ => false

/-- True for the attributes of an element that has no value. What cannot be made out
among them does not count. -/
def isNil (s : Scope) (attributes : List Char) : Bool :=
  (legibleAttributes attributes).any fun (name, value) => s.saysNil name value

end Scope

end EventWire.Xml

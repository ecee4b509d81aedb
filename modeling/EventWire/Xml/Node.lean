/-!
# XML trees

An element has a name, attributes in order and children in order. Text and CDATA
are different children, so that content carried as CDATA stays CDATA.
-/

namespace EventWire.Xml

/-- A child of an element. -/
inductive Content where
  | element (name : String) (attributes : List (String × String)) (children : List Content)
  | text (s : String)
  | cdata (s : String)
  deriving Inhabited

/-- An element. -/
structure Node where
  name : String
  attributes : List (String × String)
  children : List Content
  deriving Inhabited

mutual

/-- Equality of children is decidable. -/
def Content.decideEq : (a b : Content) → Decidable (a = b)
  | .element n as cs, .element m bs ds =>
    if hn : n = m then
      if ha : as = bs then
        match Content.decideEqList cs ds with
        | isTrue hc => isTrue (by rw [hn, ha, hc])
        | isFalse hc => isFalse fun h => hc (by injection h)
      else isFalse fun h => ha (by injection h)
    else isFalse fun h => hn (by injection h)
  | .text s, .text t => if h : s = t then isTrue (by rw [h]) else isFalse fun e => h (by injection e)
  | .cdata s, .cdata t =>
    if h : s = t then isTrue (by rw [h]) else isFalse fun e => h (by injection e)
  | .element .., .text _ => isFalse nofun
  | .element .., .cdata _ => isFalse nofun
  | .text _, .element .. => isFalse nofun
  | .text _, .cdata _ => isFalse nofun
  | .cdata _, .element .. => isFalse nofun
  | .cdata _, .text _ => isFalse nofun

/-- Equality of lists of children is decidable. -/
def Content.decideEqList : (a b : List Content) → Decidable (a = b)
  | [], [] => isTrue rfl
  | [], _ :: _ => isFalse nofun
  | _ :: _, [] => isFalse nofun
  | a :: as, b :: bs =>
    match Content.decideEq a b with
    | isTrue h =>
      match Content.decideEqList as bs with
      | isTrue hs => isTrue (by rw [h, hs])
      | isFalse hs => isFalse fun e => hs (by injection e)
    | isFalse h => isFalse fun e => h (by injection e)

end

instance : DecidableEq Content := Content.decideEq

deriving instance DecidableEq for Node

namespace Node

/-- An element without attributes and children. -/
def named (name : String) : Node :=
  { name, attributes := [], children := [] }

/-- The element as a child. -/
def toContent (n : Node) : Content :=
  .element n.name n.attributes n.children

/-- Sets the value of an attribute: one that is there keeps its place. -/
def setIn (name value : String) : List (String × String) → List (String × String)
  | [] => [(name, value)]
  | (k, v) :: rest => if k = name then (k, value) :: rest else (k, v) :: setIn name value rest

/-- Sets an attribute. -/
def setAttribute (n : Node) (name value : String) : Node :=
  { n with attributes := setIn name value n.attributes }

/-- Adds a child at the end. -/
def push (n : Node) (c : Content) : Node :=
  { n with children := n.children ++ [c] }

/-- Adds an element at the end. -/
def withChild (n child : Node) : Node :=
  n.push child.toContent

/-- Adds text at the end. -/
def withText (n : Node) (s : String) : Node :=
  n.push (.text s)

/-- Adds CDATA at the end. -/
def withCdata (n : Node) (s : String) : Node :=
  n.push (.cdata s)

/-- The value of an attribute. -/
def attribute? (n : Node) (name : String) : Option String :=
  (n.attributes.find? fun a => a.1 = name).map (·.2)

/-- The child elements in order. -/
def elements (n : Node) : List Node :=
  n.children.filterMap fun
    | .element name attributes children => some { name, attributes, children }
    | _ => none

/-- The first child element of a name. -/
def child? (n : Node) (name : String) : Option Node :=
  n.elements.find? fun e => e.name = name

/-- Text and CDATA of the children, joined. -/
def text (n : Node) : String :=
  String.join (n.children.filterMap fun
    | .text s => some s
    | .cdata s => some s
    | .element .. => none)

end Node

end EventWire.Xml

import EventWire.Xml.Node

/-!
# Adapters

An adapter rewrites trees between the form that values have and the form that
goes over the wire. Adapters are applied in order on the way out and in reverse
order on the way in; each may refuse, with a text that says why.
-/

namespace EventWire.Xml

/-- A rewriting of trees in both directions. -/
structure Adapter where
  outward : Node → Except String Node
  inward : Node → Except String Node

namespace Adapter

/-- Gives another name to a root of the name `inner`, and takes it back. -/
def rename (inner outer : String) : Adapter where
  outward n := .ok (if n.name = inner then { n with name := outer } else n)
  inward n := .ok (if n.name = outer then { n with name := inner } else n)

/-- The name of the attribute in which traces are left. -/
def traceName : String := "trace"

/-- Leaves a trace at the root, in both directions. -/
def trace (mark : String) : Adapter where
  outward n := .ok (leave n)
  inward n := .ok (leave n)
where
  /-- Appends the mark to the traces that are there. -/
  leave (n : Node) : Node :=
    n.setAttribute traceName ((n.attribute? traceName).getD "" ++ mark)

/-- Refuses every tree. -/
def refuse (reason : String) : Adapter where
  outward _ := .error reason
  inward _ := .error reason

/-- Applies adapters on the way out. -/
def applyOutward : List Adapter → Node → Except String Node
  | [], n => .ok n
  | a :: rest, n =>
    match a.outward n with
    | .ok n => applyOutward rest n
    | .error e => .error e

/-- Applies adapters on the way in: the last one first. -/
def applyInward : List Adapter → Node → Except String Node
  | [], n => .ok n
  | a :: rest, n =>
    match applyInward rest n with
    | .ok n => a.inward n
    | .error e => .error e

end Adapter

end EventWire.Xml

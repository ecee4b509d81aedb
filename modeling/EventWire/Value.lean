import EventWire.Base64
import EventWire.Json.Basic
import EventWire.Record
import EventWire.Xml.Node

/-!
# Values

What codecs write and read: JSON trees, texts, bytes, base64 payloads, XML trees,
records, and values of any other type, of which only the type and a number are kept
that tells them apart. Every value has a type, and codecs accept values by their
types. Types whose values are put together in the same way have a shape in common.
-/

namespace EventWire

/-- A value. -/
inductive Value where
  | json (v : Json)
  | text (s : String)
  | literal (s : String)
  | bytes (bs : Bytes)
  | base64 (p : Base64)
  | tree (n : Xml.Node)
  | integer (i : Int)
  | record (r : Record)
  | pairs (entries : List ((Int × Int) × Int))
  | other (label : String) (code : Nat)
  deriving Inhabited

/-- The type of a value. A text that is part of the program is of another type than
one made at run time. -/
inductive ValueType where
  | json
  | text
  | literal
  | bytes
  | base64
  | tree
  | integer
  | record (label : String) (fields : List Field)
  | pairs
  | other (label : String)
  deriving DecidableEq

/-- The type of a value. -/
def Value.type : Value → ValueType
  | .json _ => .json
  | .text _ => .text
  | .literal _ => .literal
  | .bytes _ => .bytes
  | .base64 _ => .base64
  | .tree _ => .tree
  | .integer _ => .integer
  | .record r => .record r.label r.fields
  | .pairs _ => .pairs
  | .other label _ => .other label

/-- The shape of the values of a type. -/
inductive Shape where
  | json
  | text
  | base64
  | record (fields : List Field)
  | pairs
  deriving DecidableEq

/-- The type of a shape and a name, which counts for records alone. -/
def Shape.type (shape : Shape) (label : String) : ValueType :=
  match shape with
  | .json => .json
  | .text => .text
  | .base64 => .base64
  | .record fields => .record label fields
  | .pairs => .pairs

end EventWire

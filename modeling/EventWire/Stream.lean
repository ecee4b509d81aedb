import EventWire.Class.Json

/-!
# Reading and appending to streams

Who appends to a stream says which version it must have, and who reads from one
says which events to read. Both have a JSON form.
-/

namespace EventWire

open Json (Source)

/-- The number of 64 bits as a JSON number. -/
def Number.ofWord64 (n : UInt64) : Number :=
  .integer n.toNat (by omega) (by have := n.toNat_lt; omega)

namespace Json.Source

/-- The number of a source that has 64 bits and no sign. -/
def word64? (s : Source) : Option UInt64 :=
  (s.natBelow? 0x10000000000000000).map Nat.toUInt64

/-- The values under given keys; the others are not read. Every key must be a text
and no given one may come twice. -/
def pickMembers? (keys : List String) (members : List (Option String × Source)) :
    Option (List (String × Source)) :=
  let named := members.mapM fun (k, s) => k.map (·, s)
  (named.map fun ms => ms.filter fun m => keys.contains m.1).bind fun picked =>
    if (picked.map (·.1)).Nodup then some picked else none

/-- The value under a key. -/
def under? (key : String) (picked : List (String × Source)) : Option Source :=
  (picked.find? fun m => m.1 = key).map (·.2)

end Json.Source

/-- The version that a stream must have. -/
inductive ExpectedVersion where
  | any
  | noStream
  | exact (version : UInt64)
  deriving DecidableEq

namespace ExpectedVersion

/-- The version that is asked for. -/
def version? : ExpectedVersion → Option UInt64
  | .exact v => some v
  | _ => none

/-- The kind as it is written. -/
def kindText : ExpectedVersion → String
  | .any => "any"
  | .noStream => "no_stream"
  | .exact _ => "exact"

/-- The JSON form: a kind, and a version if the kind has one. -/
def toJson (e : ExpectedVersion) : Json :=
  .object (("kind", .string e.kindText) ::
    (e.version?.map fun v => ("version", Json.number (.ofWord64 v))).toList)

/-- The name of a kind: a string, or an object with nothing under it. -/
def kindName? : Source → Option String
  | .string s => some s
  | .object [(some s, .null)] => some s
  | _ => none

/-- Puts a kind and its version together. A kind without a version takes null. -/
def ofKind? (kind : String) (version : Option Source) : Option ExpectedVersion :=
  let absent :=
    match version with
    | none => true
    | some .null => true
    | _ => false
  if kind = "any" then if absent then some .any else none
  else if kind = "no_stream" then if absent then some .noStream else none
  else if kind = "exact" then (version.bind Source.word64?).map .exact
  else none

/-- Reads the JSON form, or an array of a kind and a version. -/
def ofSource? : Source → Option ExpectedVersion
  | .object members =>
    (Source.pickMembers? ["kind", "version"] members).bind fun picked =>
      ((Source.under? "kind" picked).bind kindName?).bind fun kind =>
        ofKind? kind (Source.under? "version" picked)
  | .array [.string kind, version] => ofKind? kind (some version)
  | _ => none

/-- Reads the JSON form from text. -/
def ofText? (s : String) : Option ExpectedVersion :=
  (Source.ofText? s.toList).bind ofSource?

end ExpectedVersion

/-- Which events to read: from which place on, and how many at most. -/
structure ReadRange where
  start : UInt64
  count : UInt64
  deriving DecidableEq

namespace ReadRange

/-- As many events as there can be, from the first one on. -/
def all : ReadRange :=
  { start := 0, count := UInt64.ofNat 0xFFFFFFFFFFFFFFFF }

/-- The JSON form. -/
def toJson (r : ReadRange) : Json :=
  .object [("start", .number (.ofWord64 r.start)), ("count", .number (.ofWord64 r.count))]

/-- Puts both numbers together. -/
def ofNumbers? (start count : Option Source) : Option ReadRange :=
  match start.bind Source.word64?, count.bind Source.word64? with
  | some start, some count => some { start, count }
  | _, _ => none

/-- Reads the JSON form, or an array of both numbers. -/
def ofSource? : Source → Option ReadRange
  | .object members =>
    (Source.pickMembers? ["start", "count"] members).bind fun picked =>
      ofNumbers? (Source.under? "start" picked) (Source.under? "count" picked)
  | .array [start, count] => ofNumbers? (some start) (some count)
  | _ => none

/-- Reads the JSON form from text. -/
def ofText? (s : String) : Option ReadRange :=
  (Source.ofText? s.toList).bind ofSource?

end ReadRange

end EventWire

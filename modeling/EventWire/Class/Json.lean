import EventWire.Json.Printer
import EventWire.Json.Source
import EventWire.Value

/-!
# Shapes as JSON

A record is written as an object with its fields in order. It is read from an
object with its keys in any order, where unknown members are left unread, or from
an array with the values of the fields in order. A field that is given twice is
refused, and so is a missing one unless it is optional or a list. Base64 is a string
that is not looked into, and a map with pairs for keys is written and read only if it
is empty.

Whatever is read by a shape is of its type (`Shape.type_of_readJson?`,
`Shape.type_of_ofJson?`).
-/

namespace EventWire

open Json (Source)

/-- A number of 32 bits. -/
def Number.ofWord (n : UInt32) : Number :=
  .integer n.toNat (by omega) (by have := n.toNat_lt; omega)

/-- The value of a field. -/
def FieldValue.toJson : FieldValue → Json
  | .text s => .string s
  | .absent => .null
  | .texts items => .array (items.map .string)
  | .word n => .number (.ofWord n)

/-- The members of a record, field by field. -/
def Record.members : List Field → List FieldValue → List (String × Json)
  | f :: fields, v :: values =>
    if f.kind = .optional true ∧ v = .absent then members fields values
    else (f.key, v.toJson) :: members fields values
  | _, _ => []

/-- The record as an object. -/
def Record.toJson (r : Record) : Json :=
  .object (members r.fields r.values)

namespace Json

mutual

/-- A value as it would be written. -/
def toSource : Json → Source
  | .null => .null
  | .bool b => .bool b
  | .number n => .number n
  | .string s => .string s
  | .array items => .array (itemsToSource items)
  | .object members => .object (membersToSource members)

/-- Items as they would be written. -/
def itemsToSource : List Json → List Source
  | [] => []
  | v :: rest => toSource v :: itemsToSource rest

/-- Members as they would be written. -/
def membersToSource : List (String × Json) → List (Option String × Source)
  | [] => []
  | (k, v) :: rest => (some k, toSource v) :: membersToSource rest

end

end Json

namespace Json.Source

/-- The text of a string. -/
def text? : Source → Option String
  | .string s => some s
  | _ => none

/-- The number of a source that is a whole number from zero to below a limit. -/
def natBelow? (limit : Nat) : Source → Option Nat
  | .number (.integer i _ _) => if 0 ≤ i ∧ i.toNat < limit then some i.toNat else none
  | _ => none

/-- Reads the value of a field. -/
def fieldValue? (kind : FieldKind) (s : Source) : Option FieldValue :=
  match kind with
  | .text => s.text?.map .text
  | .optional _ =>
    match s with
    | .null => some .absent
    | _ => s.text?.map .text
  | .texts =>
    match s with
    | .array items => (items.mapM text?).map .texts
    | _ => none
  | .word => (s.natBelow? 0x100000000).map fun n => .word n.toUInt32

/-- The values of the members that are fields. Every key must be a text; the values
of other members are not read. -/
def foundFields? (fields : List Field) :
    List (Option String × Source) → Option (List (String × FieldValue))
  | [] => some []
  | (none, _) :: _ => none
  | (some key, s) :: rest =>
    match fields.find? fun f => f.key = key with
    | none => foundFields? fields rest
    | some f =>
      match s.fieldValue? f.kind, foundFields? fields rest with
      | some v, some found => some ((key, v) :: found)
      | _, _ => none

/-- The values of fields in order. -/
def listedFields? : List Field → List Source → Option (List FieldValue)
  | [], [] => some []
  | [], _ :: _ => none
  | f :: fields, [] =>
    match f.kind.missingInList?, listedFields? fields [] with
    | some v, some values => some (v :: values)
    | _, _ => none
  | f :: fields, s :: rest =>
    match s.fieldValue? f.kind, listedFields? fields rest with
    | some v, some values => some (v :: values)
    | _, _ => none

/-- Reads a record. -/
def record? (label : String) (fields : List Field) : Source → Option Record
  | .object members => (foundFields? fields members).bind (Record.ofFound? label fields)
  | .array items => (listedFields? fields items).bind (Record.ofValues? label fields)
  | _ => none

/-- Reads a value of a shape. -/
def shaped? (shape : Shape) (label : String) (s : Source) : Option Value :=
  match shape with
  | .json => (s.toJson? Json.maxDepth).map .json
  | .text => s.text?.map .text
  | .base64 => s.text?.map fun text => .base64 (.ofText text)
  | .record fields => (s.record? label fields).map .record
  | .pairs =>
    match s with
    | .object [] => some (.pairs [])
    | _ => none

end Json.Source

section Types

variable {label : String} {fields : List Field} {r : Record}

theorem Record.type_of_ofValues? {values : List FieldValue}
    (h : ofValues? label fields values = some r) :
    (Value.record r).type = .record label fields := by
  unfold ofValues? at h
  split at h
  · cases h
    rfl
  · cases h

theorem Record.type_of_ofFound? {found : List (String × FieldValue)}
    (h : ofFound? label fields found = some r) :
    (Value.record r).type = .record label fields := by
  obtain ⟨values, -, hvalues⟩ := Option.bind_eq_some_iff.mp h
  exact type_of_ofValues? hvalues

theorem Json.Source.type_of_record? {s : Source} (h : s.record? label fields = some r) :
    (Value.record r).type = .record label fields := by
  cases s with
  | object members =>
    obtain ⟨found, -, hfound⟩ := Option.bind_eq_some_iff.mp h
    exact Record.type_of_ofFound? hfound
  | array items =>
    obtain ⟨values, -, hvalues⟩ := Option.bind_eq_some_iff.mp h
    exact Record.type_of_ofValues? hvalues
  | _ => cases h

theorem Json.Source.type_of_shaped? {shape : Shape} {s : Source} {v : Value}
    (h : s.shaped? shape label = some v) : v.type = shape.type label := by
  cases shape with
  | record fields =>
    obtain ⟨r, hr, rfl⟩ := Option.map_eq_some_iff.mp h
    exact type_of_record? hr
  | pairs =>
    unfold shaped? at h
    dsimp only at h
    split at h
    · cases h
      rfl
    · cases h
  | _ =>
    obtain ⟨w, -, rfl⟩ := Option.map_eq_some_iff.mp h
    rfl

end Types

/-- The value as JSON, if values of its type have such a form. A map with pairs for
keys has none unless it is empty. -/
def Value.toJson? : Value → Option Json
  | .json v => some v
  | .text s => some (.string s)
  | .base64 p => some (.string p.text)
  | .record r => some r.toJson
  | .pairs [] => some (.object [])
  | _ => none

namespace Shape

/-- Reads a value from JSON text. -/
def readJson? (shape : Shape) (label text : String) : Option Value :=
  (Source.ofText? text.toList).bind (Source.shaped? shape label)

/-- Reads a value from a JSON tree. A tree is taken as it is, however deep. -/
def ofJson? (shape : Shape) (label : String) (v : Json) : Option Value :=
  match shape with
  | .json => some (.json v)
  | _ => v.toSource.shaped? shape label

variable {shape : Shape} {label : String} {v : Value}

theorem type_of_readJson? {text : String} (h : shape.readJson? label text = some v) :
    v.type = shape.type label := by
  obtain ⟨source, -, hread⟩ := Option.bind_eq_some_iff.mp h
  exact Json.Source.type_of_shaped? hread

theorem type_of_ofJson? {j : Json} (h : shape.ofJson? label j = some v) :
    v.type = shape.type label := by
  cases shape with
  | json =>
    cases h
    rfl
  | _ => exact Json.Source.type_of_shaped? h

end Shape

end EventWire

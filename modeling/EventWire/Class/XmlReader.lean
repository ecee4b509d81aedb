import EventWire.Class.Json
import EventWire.Xml.Markup

/-!
# Shapes from XML text

A record is read from one element: fields whose keys begin with an at sign are
attributes, lists are consecutive elements of one name, together with the texts that
follow one of them, and all others single elements, known by their local names.
Attributes and texts that are no fields are not read, and elements that are none are
passed over. An optional field whose element is nil is absent. A JSON tree is read
from any element as an object, with its attributes, its child elements and its text
under `$text`, and of a repeated key the last value counts. Whatever is read by a
shape is of its type (`Shape.type_of_readXml?`).
-/

namespace EventWire

namespace Xml.Markup

mutual

/-- An item as a JSON tree. -/
def toJson? : Markup → Option Json
  | .text content => content.map fun cs => .string (String.ofList cs)
  | .element _ attributes content =>
    match attributeMembers? attributes with
    | some members => (contentMembers? members content).map .object
    | none => none

/-- Content as members, put one after the other into those before. -/
def contentMembers? (before : List (String × Json)) :
    List Markup → Option (List (String × Json))
  | [] => some before
  | .text content :: rest =>
    match content with
    | some cs => contentMembers? (Json.insert textKey (.string (String.ofList cs)) before) rest
    | none => none
  | .element name attributes content :: rest =>
    match toJson? (.element name attributes content) with
    | some v => contentMembers? (Json.insert (elementKey name) v before) rest
    | none => none

/-- Attributes as members. -/
def attributeMembers? (cs : List Char) : Option (List (String × Json)) :=
  (attributes? cs).bind fun attributes =>
    attributes.foldlM (fun members (key, value) =>
      (unescape? value).map fun v => Json.insert key (.string (String.ofList v)) members) []

end

/-- Reads a whole number of 32 bits; a plus sign may stand before it. -/
def word? (cs : List Char) : Option UInt32 :=
  let digits :=
    match cs with
    | '+' :: rest => rest
    | _ => cs
  (readNumber? 10 digits).bind fun n => if n < 0x100000000 then some n.toUInt32 else none

/-- Cuts at blanks. -/
def splitBlanks : List Char → List (List Char)
  | [] => []
  | c :: rest =>
    if Text.isPlainBlank c then splitBlanks rest
    else
      match rest with
      | [] => [[c]]
      | d :: _ =>
        if Text.isPlainBlank d then [c] :: splitBlanks rest
        else
          match splitBlanks rest with
          | [] => [[c]]
          | word :: words => (c :: word) :: words

/-- The value of a field that is an attribute, by how it is written. -/
def attributeValue? (kind : FieldKind) (raw : List Char) : Option FieldValue :=
  match kind with
  | .text => (unescape? raw).map fun cs => .text (String.ofList cs)
  | .optional _ => (unescape? raw).map fun cs => .text (String.ofList cs)
  | .texts => ((splitBlanks raw).mapM unescape?).map fun items => .texts (items.map String.ofList)
  | .word => (word? raw).map .word

/-- The values of the attributes that are fields. -/
def foundAttributes? (fields : List Field) :
    List (String × List Char) → Option (List (String × FieldValue))
  | [] => some []
  | (key, raw) :: rest =>
    match fields.find? fun f => f.key = key with
    | none => foundAttributes? fields rest
    | some f =>
      match attributeValue? f.kind raw, foundAttributes? fields rest with
      | some v, some found => some ((key, v) :: found)
      | _, _ => none

/-- The value of a field that is an element. -/
def elementValue? (kind : FieldKind) (m : Markup) : Option FieldValue :=
  match kind with
  | .text => m.plainText?.map .text
  | .optional _ => m.plainText?.map .text
  | .texts => m.plainText?.map fun s => .texts [s]
  | .word => (m.plainText?.bind fun s => word? s.toList).map .word

/-- Puts an item before the list that follows it, when both belong to one list. -/
def joinLists (key : String) (value : FieldValue) (goesOn : Bool)
    (found : List (String × FieldValue)) : List (String × FieldValue) :=
  match value, goesOn, found with
  | .texts items, true, (_, .texts later) :: rest => (key, .texts (items ++ later)) :: rest
  | _, _, _ => (key, value) :: found

/-- True when a list of elements of a name goes on: with another one, or with text,
which counts as an item. -/
def listGoesOn (name : List Char) : List Markup → Bool
  | .text _ :: _ => true
  | .element other _ _ :: _ => other = name
  | [] => false

/-- The value of a field that is an element inside of `outer`. An optional field has
none when its element is nil. The scope is the one after the element. -/
def elementField? (scope : Scope) (outer : List Char) (kind : FieldKind) (m : Markup) :
    Option (FieldValue × Scope) :=
  match kind with
  | .optional _ => do
    if ← m.isNil? scope outer then return (.absent, ← m.passedOver? scope)
    else return (← elementValue? kind m, scope)
  | _ => (elementValue? kind m).map (·, scope)

/-- The values of the child elements that are fields, in an element with the
attributes `outer`. `list?` is the name of the elements of the list that is being
read, if there is one. -/
def foundElements? (outer : List Char) (fields : List Field) (scope : Scope)
    (list? : Option (List Char)) : List Markup → Option (List (String × FieldValue))
  | [] => some []
  | .text content :: rest =>
    match content, list?, foundElements? outer fields scope list? rest with
    | some _, none, found => found
    | some cs, some name, some found =>
      some (joinLists (elementKey name) (.texts [String.ofList cs]) (listGoesOn name rest) found)
    | _, _, _ => none
  | .element name attributes content :: rest =>
    match fields.find? fun f => f.key = elementKey name with
    | none =>
      match passedOver? scope (.element name attributes content) with
      | some scope => foundElements? outer fields scope none rest
      | none => none
    | some f =>
      match elementField? scope outer f.kind (.element name attributes content) with
      | none => none
      | some (v, scope) =>
        let list? := if f.kind = .texts then some name else none
        (foundElements? outer fields scope list? rest).map
          (joinLists f.key v (listGoesOn name rest))

/-- Reads a record. -/
def record? (label : String) (fields : List Field) : Markup → Option Record
  | .text _ => none
  | .element _ attributes content => do
    let found ← (← attributes? attributes) |> foundAttributes? fields
    let scope ← Scope.empty.enter? attributes
    let later ← foundElements? attributes fields scope none content
    Record.ofFound? label fields (found ++ later)

/-- Reads a value of a shape. -/
def shaped? (shape : Shape) (label : String) (m : Markup) : Option Value :=
  match shape with
  | .json => m.toJson?.map .json
  | .text => m.plainText?.map .text
  | .base64 => m.plainText?.map fun text => .base64 (.ofText text)
  | .record fields => (m.record? label fields).map .record
  | .pairs =>
    match m.toJson? with
    | some (.object []) => some (.pairs [])
    | _ => none

variable {shape : Shape} {label : String} {m : Markup}

theorem type_of_record? {fields : List Field} {r : Record} (h : m.record? label fields = some r) :
    (Value.record r).type = .record label fields := by
  cases m with
  | text s => cases h
  | element name attributes content =>
    obtain ⟨_, -, h⟩ := Option.bind_eq_some_iff.mp h
    obtain ⟨_, -, h⟩ := Option.bind_eq_some_iff.mp h
    obtain ⟨_, -, h⟩ := Option.bind_eq_some_iff.mp h
    obtain ⟨_, -, hfound⟩ := Option.bind_eq_some_iff.mp h
    exact Record.type_of_ofFound? hfound

theorem type_of_shaped? {v : Value} (h : m.shaped? shape label = some v) :
    v.type = shape.type label := by
  cases shape with
  | record fields =>
    obtain ⟨r, hr, rfl⟩ := Option.map_eq_some_iff.mp h
    exact type_of_record? hr
  | pairs =>
    unfold shaped? at h
    dsimp only at h
    split at h
    · cases h
      rfl
    · cases h
  | _ =>
    obtain ⟨w, -, rfl⟩ := Option.map_eq_some_iff.mp h
    rfl

end Xml.Markup

/-- Reads a value from XML text. -/
def Shape.readXml? (shape : Shape) (label text : String) : Option Value :=
  (Xml.Markup.ofText? text).bind (Xml.Markup.shaped? shape label)

theorem Shape.type_of_readXml? {shape : Shape} {label text : String} {v : Value}
    (h : shape.readXml? label text = some v) : v.type = shape.type label := by
  obtain ⟨markup, -, hread⟩ := Option.bind_eq_some_iff.mp h
  exact Xml.Markup.type_of_shaped? hread

end EventWire

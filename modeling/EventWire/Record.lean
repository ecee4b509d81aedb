/-!
# Records

A record has values for the fields of its type. A field holds a text, an optional
text, a list of texts or a number of 32 bits, and the values of a record always fit
its fields. In XML, a field whose key begins with an at sign is an attribute.
-/

namespace EventWire

/-- What a field holds. An optional text that is absent may be left out when it is
written. -/
inductive FieldKind where
  | text
  | optional (omitted : Bool)
  | texts
  | word
  deriving DecidableEq

/-- A field by its key. -/
structure Field where
  key : String
  kind : FieldKind
  deriving DecidableEq

/-- The value of a field. -/
inductive FieldValue where
  | text (s : String)
  | absent
  | texts (items : List String)
  | word (n : UInt32)
  deriving DecidableEq

namespace FieldKind

/-- True for the values that a field may have. -/
def admits : FieldKind → FieldValue → Bool
  | .text, .text _ => true
  | .optional _, .text _ => true
  | .optional _, .absent => true
  | .texts, .texts _ => true
  | .word, .word _ => true
  | _, _ => false

/-- The value of a field that is not given by its key. -/
def missing? : FieldKind → Option FieldValue
  | .optional _ => some .absent
  | .texts => some (.texts [])
  | _ => none

/-- The value of a field that stands after the end of a list of values. -/
def missingInList? : FieldKind → Option FieldValue
  | .texts => some (.texts [])
  | _ => none

end FieldKind

/-- True when values fit fields one by one. -/
def valuesFit : List Field → List FieldValue → Bool
  | [], [] => true
  | f :: fields, v :: values => f.kind.admits v && valuesFit fields values
  | _, _ => false

/-- A record: the name and fields of its type, and a value for every field. -/
structure Record where
  label : String
  fields : List Field
  values : List FieldValue
  fit : valuesFit fields values = true
  deriving DecidableEq

namespace Record

/-- A record of values that fit. -/
def ofValues? (label : String) (fields : List Field) (values : List FieldValue) : Option Record :=
  if h : valuesFit fields values = true then some { label, fields, values, fit := h } else none

/-- The value found under a key. -/
def foundUnder (key : String) : List (String × FieldValue) → Option FieldValue
  | [] => none
  | (k, v) :: rest => if k = key then some v else foundUnder key rest

/-- The values of all fields, by those that were found: none may be found twice,
and what was not found must be allowed to be missing. -/
def complete? (fields : List Field) (found : List (String × FieldValue)) :
    Option (List FieldValue) :=
  if (found.map (·.1)).Nodup then
    fields.mapM fun f => (foundUnder f.key found).or f.kind.missing?
  else none

/-- A record by the values that were found. -/
def ofFound? (label : String) (fields : List Field) (found : List (String × FieldValue)) :
    Option Record :=
  (complete? fields found).bind (ofValues? label fields)

end Record

end EventWire

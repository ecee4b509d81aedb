import EventWire.Decimal.Binary64

/-!
# JSON trees

Numbers are integers of 64 bits, with or without a sign, or finite doubles; the
two kinds are never equal. Objects keep their members in order of insertion, and
`insert` leaves a repeated key at its first place with its last value. Two trees
are the `same` when they agree up to the order of members; the two zeros of the
doubles count as one number.
-/

namespace EventWire

open Decimal (Binary64)

/-- A JSON number. -/
inductive Number where
  | integer (value : Int) (low : -0x8000000000000000 ≤ value) (high : value < 0x10000000000000000)
  | float (x : Binary64)
  deriving DecidableEq

/-- A JSON tree. -/
inductive Json where
  | null
  | bool (b : Bool)
  | number (n : Number)
  | string (s : String)
  | array (items : List Json)
  | object (members : List (String × Json))
  deriving Inhabited

/-- The integer as a JSON number, if it has at most 64 bits. -/
def Number.ofInt? (i : Int) : Option Number :=
  if h : -0x8000000000000000 ≤ i ∧ i < 0x10000000000000000 then some (.integer i h.1 h.2) else none

/-- Equality of JSON numbers. -/
def Number.same : Number → Number → Bool
  | .integer a _ _, .integer b _ _ => a = b
  | .float a, .float b => a.sameValue b
  | _, _ => false

namespace Json

/-- The value under a key. -/
def lookup (key : String) : List (String × Json) → Option Json
  | [] => none
  | (k, v) :: rest => if k = key then some v else lookup key rest

/-- Puts a value under a key: a key that is there keeps its place. -/
def insert (key : String) (value : Json) : List (String × Json) → List (String × Json)
  | [] => [(key, value)]
  | (k, v) :: rest =>
    if k = key then (k, value) :: rest else (k, v) :: insert key value rest

theorem lookup_insert_self (key : String) (value : Json) (members : List (String × Json)) :
    lookup key (insert key value members) = some value := by
  induction members with
  | nil => simp [insert, lookup]
  | cons m rest ih =>
    obtain ⟨k, v⟩ := m
    by_cases h : k = key <;> simp [insert, lookup, h, ih]

theorem lookup_insert_of_ne {key other : String} (h : other ≠ key) (value : Json)
    (members : List (String × Json)) :
    lookup other (insert key value members) = lookup other members := by
  induction members with
  | nil => simp [insert, lookup, Ne.symm h]
  | cons m rest ih =>
    obtain ⟨k, v⟩ := m
    by_cases hk : k = key
    · subst hk; simp [insert, lookup, Ne.symm h]
    · by_cases ho : k = other
      · subst ho; simp [insert, lookup, h]
      · simp [insert, lookup, hk, ho, ih]

/-- The member of an object under a key; nothing for other trees. -/
def get? (key : String) : Json → Option Json
  | .object members => lookup key members
  | _ => none

/-- The text of a string. -/
def text? : Json → Option String
  | .string s => some s
  | _ => none

/-- True for arrays and objects. -/
def isStructured : Json → Bool
  | .array _ | .object _ => true
  | _ => false

mutual

/-- Equality up to the order of members. -/
def same : Json → Json → Bool
  | .null, .null => true
  | .bool a, .bool b => a = b
  | .number a, .number b => a.same b
  | .string a, .string b => a = b
  | .array a, .array b => sameItems a b
  | .object a, .object b => a.length = b.length && sameMembers a b
  | _, _ => false

/-- Items are the same one by one. -/
def sameItems : List Json → List Json → Bool
  | [], [] => true
  | a :: as, b :: bs => same a b && sameItems as bs
  | _, _ => false

/-- Every member of the first list has its counterpart in the second. -/
def sameMembers : List (String × Json) → List (String × Json) → Bool
  | [], _ => true
  | (k, v) :: rest, other =>
    (match lookup k other with
      | some w => same v w
      | none => false) && sameMembers rest other

end

mutual

/-- How deep arrays and objects nest. -/
def depth : Json → Nat
  | .array items => 1 + depthOfItems items
  | .object members => 1 + depthOfMembers members
  | _ => 0

/-- The greatest depth of the items. -/
def depthOfItems : List Json → Nat
  | [] => 0
  | v :: rest => max (depth v) (depthOfItems rest)

/-- The greatest depth of the members. -/
def depthOfMembers : List (String × Json) → Nat
  | [] => 0
  | (_, v) :: rest => max (depth v) (depthOfMembers rest)

end

/-- Reading stops at deeper nesting than this. -/
def maxDepth : Nat := 127

end Json

end EventWire

import EventWire.Name

/-!
# Event ids

An event id is a UUID: 32 hexadecimal digits. It is written in groups of 8, 4, 4,
4 and 12 small digits. It is read in that form, without the hyphens, in braces or
as a URN, with digits of any case.
-/

namespace EventWire

/-- A UUID by its digits. -/
structure EventId where
  digits : List (Fin 16)
  complete : digits.length = 32
  deriving DecidableEq

namespace EventId

/-- The digits as characters. -/
def digitChars (ds : List (Fin 16)) : List Char :=
  ds.map fun d => hexDigit d.val

/-- The 32 digits without hyphens. -/
def simple (id : EventId) : String :=
  String.ofList (digitChars id.digits)

/-- The digits in groups of 8, 4, 4, 4 and 12. -/
def hyphenate (ds : List (Fin 16)) : List Char :=
  digitChars (ds.take 8) ++ '-' :: digitChars ((ds.drop 8).take 4) ++
    '-' :: digitChars ((ds.drop 12).take 4) ++ '-' :: digitChars ((ds.drop 16).take 4) ++
    '-' :: digitChars (ds.drop 20)

/-- The usual written form. -/
def text (id : EventId) : String :=
  String.ofList (hyphenate id.digits)

/-- Reads a run of hexadecimal digits. -/
def readDigits? : List Char → Option (List (Fin 16))
  | [] => some []
  | c :: rest =>
    match hexValue? c, readDigits? rest with
    | some v, some vs => if h : v < 16 then some (⟨v, h⟩ :: vs) else none
    | _, _ => none

/-- Reads 32 digits without hyphens. -/
def ofSimple? (cs : List Char) : Option EventId :=
  match readDigits? cs with
  | some ds => if h : ds.length = 32 then some ⟨ds, h⟩ else none
  | none => none

/-- Reads the groups of 8, 4, 4, 4 and 12 digits between hyphens. -/
def ofHyphenated? (cs : List Char) : Option EventId :=
  if cs.length = 36 ∧ cs[8]? = some '-' ∧ cs[13]? = some '-' ∧ cs[18]? = some '-' ∧
      cs[23]? = some '-' then
    ofSimple? (cs.take 8 ++ (cs.drop 9).take 4 ++ (cs.drop 14).take 4 ++ (cs.drop 19).take 4 ++
      cs.drop 24)
  else none

/-- What stands before the hyphenated form in a URN, in letters of any case. -/
def urnStart : List Char := ['u', 'r', 'n', ':', 'u', 'u', 'i', 'd', ':']

/-- Reads any of the four forms, told apart by their lengths. -/
def ofChars? (cs : List Char) : Option EventId :=
  if cs.length = 32 then ofSimple? cs
  else if cs.length = 36 then ofHyphenated? cs
  else if cs.length = 38 ∧ cs.head? = some '\x7b' ∧ cs.getLast? = some '\x7d' then
    ofHyphenated? ((cs.drop 1).take 36)
  else if cs.length = 45 ∧ (cs.take 9).map Char.toLower = urnStart then ofHyphenated? (cs.drop 9)
  else none

/-- Reads an event id. -/
def ofText (s : String) : Except IdError EventId :=
  if s = "" then .error (.empty .eventId)
  else
    match ofChars? s.toList with
    | some id => .ok id
    | none => .error .invalidUuid

/-- The order of event ids is that of their digits. -/
def before (a b : EventId) : Bool :=
  decide (a.simple ≤ b.simple)

/-- A random UUID: version 4, and the variant in the two high bits of digit 16. -/
def ofRandom (ds : List (Fin 16)) (h : ds.length = 32) : EventId where
  digits := (ds.set 12 4).set 16 (if hv : 8 + (ds.getD 16 0).val % 4 < 16 then ⟨_, hv⟩ else 8)
  complete := by simp [h]

/-- Draws a random UUID. -/
def generate {γ : Type} [RandomGen γ] (g : γ) : EventId × γ :=
  let rec draw : (n : Nat) → γ → { ds : List (Fin 16) // ds.length = n } × γ
    | 0, g => (⟨[], rfl⟩, g)
    | n + 1, g =>
      let (v, g) := randNat g 0 15
      let (⟨ds, h⟩, g) := draw n g
      (⟨Fin.ofNat 16 v :: ds, by simp [h]⟩, g)
  let (ds, g) := draw 32 g
  (ofRandom ds.val ds.property, g)

/-- The version of a UUID. -/
def version (id : EventId) : Nat :=
  (id.digits.getD 12 0).val

end EventId

end EventWire

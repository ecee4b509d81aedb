import EventWire.Bytes

/-!
# Escapes of XML

Text and attribute values are written with the five predefined entities and read
with those and numeric references. `unescape?` fails at an ampersand that begins
no such reference.
-/

namespace EventWire.Xml

/-- What stands for one character in text and attribute values. -/
def escapeChar (c : Char) : List Char :=
  match c with
  | '<' => ['&', 'l', 't', ';']
  | '>' => ['&', 'g', 't', ';']
  | '&' => ['&', 'a', 'm', 'p', ';']
  | '\'' => ['&', 'a', 'p', 'o', 's', ';']
  | '"' => ['&', 'q', 'u', 'o', 't', ';']
  | _ => [c]

/-- The written form of text and attribute values. -/
def escape (cs : List Char) : List Char :=
  cs.flatMap escapeChar

/-- Reads a natural number in base ten or sixteen; no digits make no number. -/
def readNumber? (base : Nat) (cs : List Char) : Option Nat :=
  if cs.isEmpty then none
  else
    cs.foldl (fun acc c => acc.bind fun n => (hexValue? c).bind fun d =>
      if d < base then some (n * base + d) else none) (some 0)

/-- The character of a number other than zero. -/
def numberedChar? (n : Nat) : Option Char :=
  if h : n ≠ 0 ∧ n.isValidChar then some (Char.ofNatAux n h.2) else none

/-- The character that a reference stands for, by what is between `&` and `;`. -/
def reference? : List Char → Option Char
  | ['l', 't'] => some '<'
  | ['g', 't'] => some '>'
  | ['a', 'm', 'p'] => some '&'
  | ['a', 'p', 'o', 's'] => some '\''
  | ['q', 'u', 'o', 't'] => some '"'
  | '#' :: 'x' :: digits => (readNumber? 16 digits).bind numberedChar?
  | '#' :: digits => (readNumber? 10 digits).bind numberedChar?
  | _ => none

/-- Replaces references; `pending` holds the characters since an ampersand, latest
first. -/
def unescapeFrom (pending : Option (List Char)) : List Char → Option (List Char)
  | [] => if pending.isNone then some [] else none
  | c :: rest =>
    match pending with
    | none =>
      if c = '&' then unescapeFrom (some []) rest
      else (unescapeFrom none rest).map (c :: ·)
    | some name =>
      if c = ';' then
        match reference? name.reverse with
        | some x => (unescapeFrom none rest).map (x :: ·)
        | none => none
      else if c = '&' then none
      else unescapeFrom (some (c :: name)) rest

/-- Reads text or an attribute value from its written form. -/
def unescape? (cs : List Char) : Option (List Char) :=
  unescapeFrom none cs

end EventWire.Xml

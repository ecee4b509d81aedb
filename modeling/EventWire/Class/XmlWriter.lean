import EventWire.Class.Json
import EventWire.Xml.Markup

/-!
# Values as XML text

A value is written as an element by its JSON form. Members whose keys begin with an
at sign become attributes, wherever they stand, and all others child elements; the
items of an array become elements of one name. An element without content is
written as an empty one, and so are null and the empty text. The key `$text` writes
text beside elements and the key `$value` content without an element.

The names that this writer takes are those of XML 1.1 and the empty one, which are
others than those that trees are written with.
-/

namespace EventWire.Xml

/-- The code points that a name of XML 1.1 may begin with. -/
def wideStartRanges : List (Nat × Nat) := [
    (0x3A, 0x3A), (0x41, 0x5A), (0x5F, 0x5F), (0x61, 0x7A), (0xC0, 0xD6), (0xD8, 0xF6),
    (0xF8, 0x2FF), (0x370, 0x37D), (0x37F, 0x1FFF), (0x200C, 0x200D), (0x2070, 0x218F),
    (0x2C00, 0x2FEF), (0x3001, 0xD7FF), (0xF900, 0xFDCF), (0xFDF0, 0xFFFD), (0x10000, 0xEFFFF)]

/-- The further code points of a name of XML 1.1. -/
def wideRestRanges : List (Nat × Nat) := [
    (0x2D, 0x2E), (0x30, 0x39), (0xB7, 0xB7), (0x300, 0x36F), (0x203F, 0x2040)]

/-- True for names of XML 1.1 and the empty name. -/
def isWideName (s : String) : Bool :=
  match s.toList with
  | [] => true
  | c :: rest =>
    Text.inRanges wideStartRanges c &&
      rest.all fun c => Text.inRanges wideStartRanges c || Text.inRanges wideRestRanges c

/-- The name of an element or attribute, if it can be written. -/
def wideName? (s : String) : Option (List Char) :=
  if isWideName s then some s.toList else none

/-- What stands for a character of text. -/
def escapeTextChar (c : Char) : List Char :=
  match c with
  | '<' => ['&', 'l', 't', ';']
  | '>' => ['&', 'g', 't', ';']
  | '&' => ['&', 'a', 'm', 'p', ';']
  | _ => [c]

/-- What stands for a character of an attribute value. -/
def escapeValueChar (c : Char) : List Char :=
  match c with
  | '"' => ['&', 'q', 'u', 'o', 't', ';']
  | _ => escapeTextChar c

/-- What stands for a character of an item in a list, where blanks separate. -/
def escapeItemChar (escapeChar : Char → List Char) (c : Char) : List Char :=
  match c with
  | ' ' => ['&', '#', '3', '2', ';']
  | '\t' => ['&', '#', '9', ';']
  | '\n' => ['&', '#', '1', '0', ';']
  | '\r' => ['&', '#', '1', '3', ';']
  | _ => escapeChar c

/-- Doubles are written without an exponent, and whole ones without a fraction; ties
go up. -/
def plainLayout : Decimal.Layout where
  tie := .up
  positional := fun _ => true
  wholeFraction := false
  exponentSign := false

/-- The text of a value that is neither null nor structured. -/
def scalarText? (escapeChar : Char → List Char) : Json → Option (List Char)
  | .bool true => some ['t', 'r', 'u', 'e']
  | .bool false => some ['f', 'a', 'l', 's', 'e']
  | .number (.integer i _ _) => some (Decimal.integerDigits i)
  | .number (.float x) => some (plainLayout.render x)
  | .string s => some (s.toList.flatMap escapeChar)
  | _ => none

/-- Items with a space between two of them; empty texts are left out. -/
def itemsText? (escapeChar : Char → List Char) (items : List Json) : Option (List Char) :=
  (items.mapM (scalarText? (escapeItemChar escapeChar))).map fun texts =>
    List.intercalate [' '] (texts.filter fun t => !t.isEmpty)

/-- The text of a value without elements. -/
def simpleText? (escapeChar : Char → List Char) : Json → Option (List Char)
  | .null => some []
  | .array items => itemsText? escapeChar items
  | v => scalarText? escapeChar v

/-- An element without content. -/
def emptyElement (name : List Char) : List Char :=
  '<' :: name ++ ['/', '>']

/-- An element with content. -/
def wholeElement (name content : List Char) : List Char :=
  '<' :: name ++ '>' :: content ++ '<' :: '/' :: name ++ ['>']

mutual

/-- A value as elements of the given name. -/
def elementText? (name : List Char) : Json → Option (List Char)
  | .null => some (emptyElement name)
  | .array items => elementsText? name items
  | .object members =>
    match attributesText? members, childrenText? members with
    | some attributes, some [] => some (emptyElement (name ++ attributes))
    | some attributes, some (c :: content) =>
      some ('<' :: name ++ attributes ++ '>' :: c :: content ++ '<' :: '/' :: name ++ ['>'])
    | _, _ => none
  | .string s =>
    if s = "" then some (emptyElement name)
    else some (wholeElement name (s.toList.flatMap escapeTextChar))
  | v => (scalarText? escapeTextChar v).map (wholeElement name)

/-- Items as elements of one name. -/
def elementsText? (name : List Char) : List Json → Option (List Char)
  | [] => some []
  | v :: rest =>
    match elementText? name v, elementsText? name rest with
    | some first, some later => some (first ++ later)
    | _, _ => none

/-- The members that are attributes. -/
def attributesText? : List (String × Json) → Option (List Char)
  | [] => some []
  | (key, v) :: rest =>
    match key.toList with
    | '@' :: name =>
      match wideName? (String.ofList name), simpleText? escapeValueChar v, attributesText? rest with
      | some name, some text, some later => some (' ' :: name ++ '=' :: '"' :: text ++ '"' :: later)
      | _, _, _ => none
    | _ => attributesText? rest

/-- The members that are content. -/
def childrenText? : List (String × Json) → Option (List Char)
  | [] => some []
  | (key, v) :: rest =>
    let text :=
      -- Attributes stand in the tag and not among the content.
      if key.toList.head? = some '@' then some []
      else if key = Markup.textKey then simpleText? escapeTextChar v
      else if key = "$value" then (bareText? true v).map (·.1)
      else (wideName? key).bind fun name => elementText? name v
    match text, childrenText? rest with
    | some first, some later => some (first ++ later)
    | _, _ => none

/-- A value as content without an element, and whether it is text. Text is refused
where it is not `admitted`; empty text writes nothing and stands everywhere. -/
def bareText? (admitted : Bool) : Json → Option (List Char × Bool)
  | .null => some ([], false)
  | .array items => bareItemsText? false items
  | .object _ => none
  | .string s =>
    if s = "" then some ([], true)
    else if admitted then some (s.toList.flatMap escapeTextChar, true)
    else none
  | v => if admitted then (scalarText? escapeTextChar v).map (·, true) else none

/-- Items as content without elements, and whether the last one is text. Items of
text could not be told apart, so an array has no text but after text, which is empty
where it comes first. -/
def bareItemsText? (afterText : Bool) : List Json → Option (List Char × Bool)
  | [] => some ([], afterText)
  | v :: rest =>
    match bareText? afterText v with
    | some (first, isText) =>
      (bareItemsText? isText rest).map fun (later, isText) => (first ++ later, isText)
    | none => none

end

end EventWire.Xml

namespace EventWire.Value

/-- The value as XML text with a root element, if it can be written so. -/
def toXml? (v : Value) (root : String) : Option String := do
  let cs ← Xml.elementText? (← Xml.wideName? root) (← v.toJson?)
  return String.ofList cs

end EventWire.Value

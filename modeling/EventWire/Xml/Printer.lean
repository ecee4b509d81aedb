import EventWire.Xml.Document
import EventWire.Xml.Name

/-!
# Writing XML

Elements without children are written as empty elements, text is escaped, and a
CDATA text that contains the end mark is split over several sections. The names of
elements must be valid.
-/

namespace EventWire.Xml

/-- The sections of a CDATA text: a cut is made in every end mark, after its two
brackets. The first section is given apart. -/
def cdataChunks : List Char → List Char × List (List Char)
  | [] => ([], [])
  | ']' :: ']' :: '>' :: rest =>
    let (chunk, chunks) := cdataChunks ('>' :: rest)
    ([']', ']'], chunk :: chunks)
  | c :: rest =>
    let (chunk, chunks) := cdataChunks rest
    (c :: chunk, chunks)
  termination_by cs => cs.length

/-- One CDATA section. -/
def cdataSection (cs : List Char) : List Char :=
  ['<', '!', '[', 'C', 'D', 'A', 'T', 'A', '['] ++ cs ++ [']', ']', '>']

/-- A CDATA text. -/
def cdataText (cs : List Char) : List Char :=
  let (chunk, chunks) := cdataChunks cs
  (chunk :: chunks).flatMap cdataSection

/-- An attribute with the blank before it. -/
def attributeText (a : String × String) : List Char :=
  ' ' :: a.1.toList ++ '=' :: '"' :: escape a.2.toList ++ ['"']

/-- What stands between the brackets of a start tag. -/
def tagText (name : String) (attributes : List (String × String)) : List Char :=
  name.toList ++ attributes.flatMap attributeText

mutual

/-- The text of a child. -/
def contentText : Content → Except XmlError (List Char)
  | .element name attributes children =>
    if isValidName name then
      match children with
      | [] => .ok ('<' :: tagText name attributes ++ ['/', '>'])
      | c :: cs =>
        match contentText c, childrenText cs with
        | .ok first, .ok later =>
          .ok ('<' :: tagText name attributes ++ '>' :: first ++ later ++
            '<' :: '/' :: name.toList ++ ['>'])
        | .error e, _ => .error e
        | _, .error e => .error e
    else .error (.invalidName name)
  | .text s => .ok (escape s.toList)
  | .cdata s => .ok (cdataText s.toList)

/-- The text of children, one after the other. -/
def childrenText : List Content → Except XmlError (List Char)
  | [] => .ok []
  | c :: cs =>
    match contentText c, childrenText cs with
    | .ok first, .ok later => .ok (first ++ later)
    | .error e, _ => .error e
    | _, .error e => .error e

end

/-- The declaration of an encoding. -/
def declarationText (encoding : String) : List Char :=
  "<?xml version=\"1.0\" encoding=\"".toList ++ encoding.toList ++ "\"?>".toList

/-- Writes an element, after a declaration when an encoding is given. -/
def writeDocument (root : Node) (encoding : Option String) : Except XmlError String :=
  match contentText root.toContent with
  | .ok cs => .ok (String.ofList ((encoding.map declarationText).getD [] ++ cs))
  | .error e => .error e

/-- Writes an element. -/
def Node.write (n : Node) : Except XmlError String :=
  writeDocument n none

end EventWire.Xml

import EventWire.Text.Letter
import EventWire.Text.Numeral

/-!
# XML names

A name that can be written begins with a letter, an underscore or a colon and goes
on with those, numerals, hyphens and dots.
-/

namespace EventWire.Xml

/-- True for the characters a name may begin with. -/
def isNameStart (c : Char) : Bool :=
  Text.isLetter c || c = '_' || c = ':'

/-- True for the characters of a name. -/
def isNameChar (c : Char) : Bool :=
  Text.isLetter c || Text.isNumeral c || c = '_' || c = ':' || c = '-' || c = '.'

/-- True for names that can be written. -/
def isValidNameChars : List Char → Bool
  | [] => false
  | c :: rest => isNameStart c && rest.all isNameChar

/-- True for names that can be written. -/
def isValidName (name : String) : Bool :=
  isValidNameChars name.toList

end EventWire.Xml

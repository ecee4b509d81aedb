import EventWire.Text.Ranges

/-!
# Blanks

The characters with the Unicode property `White_Space`, trimming, and the four
blanks that markup knows (space, tab, line feed, carriage return). `trim` drops
the blanks at both ends and nothing else.
-/

namespace EventWire.Text

/-- The code points of the property `White_Space`. -/
def blankRanges : List (Nat × Nat) := [
    (0x9, 0xD), (0x20, 0x20), (0x85, 0x85), (0xA0, 0xA0), (0x1680, 0x1680), (0x2000, 0x200A),
    (0x2028, 0x2029), (0x202F, 0x202F), (0x205F, 0x205F), (0x3000, 0x3000)]

/-- True for a blank of any script. -/
def isBlank (c : Char) : Bool :=
  inRanges blankRanges c

/-- True for the four blanks of markup and of data formats. -/
def isPlainBlank (c : Char) : Bool :=
  c = ' ' || c = '\t' || c = '\n' || c = '\r'

/-- Drops the characters at the end that satisfy `p`. -/
def dropEndWhile (p : Char → Bool) (cs : List Char) : List Char :=
  (cs.reverse.dropWhile p).reverse

/-- Drops the blanks at both ends. -/
def trimChars (cs : List Char) : List Char :=
  dropEndWhile isBlank (cs.dropWhile isBlank)

/-- Drops the blanks at both ends of a text. -/
def trim (s : String) : String :=
  String.ofList (trimChars s.toList)

/-- True when a text holds nothing but blanks. -/
def blankOnly (cs : List Char) : Bool :=
  cs.all isBlank

end EventWire.Text

/-!
# ASCII case

Names of charsets, media types and their parameters are compared without regard
to the case of ASCII letters; all other characters are left alone.
-/

namespace EventWire.Text

/-- The text with its ASCII capitals made small. -/
def asciiLower (s : String) : String :=
  String.ofList (s.toList.map Char.toLower)

/-- Equality up to the case of ASCII letters. -/
def sameIgnoringCase (a b : String) : Bool :=
  asciiLower a = asciiLower b

theorem sameIgnoringCase_refl (a : String) : sameIgnoringCase a a = true := by
  simp [sameIgnoringCase]

end EventWire.Text

import EventWire.MediaType.Basic

/-!
# The text of a media type

Version, encoding and further parameters follow the base in this order. A value
that is a token stands bare, any other between double quotes, where quotes and
backslashes are escaped.
-/

namespace EventWire.MediaType

/-- The characters of a quoted value. -/
def escapeValue : List Char → List Char
  | [] => []
  | c :: rest =>
    if c = '"' || c = '\\' then '\\' :: c :: escapeValue rest else c :: escapeValue rest

/-- A value as it stands after its name. -/
def valueText (s : String) : List Char :=
  if isToken s then s.toList else '"' :: escapeValue s.toList ++ ['"']

/-- A parameter as it stands after the base. -/
def parameterText (name value : String) : List Char :=
  ';' :: ' ' :: name.toList ++ '=' :: valueText value

/-- All parameters by name, the two with fields of their own first. -/
def allParameters (m : MediaType) : List (String × String) :=
  (m.version.toList.map (versionName, ·)) ++ (m.encoding.toList.map (encodingName, ·)) ++
    m.parameters.entries.map fun e => (e.1.text, e.2)

/-- The text of a media type. -/
def print (m : MediaType) : String :=
  String.ofList (m.base.toList ++ m.allParameters.flatMap fun p => parameterText p.1 p.2)

end EventWire.MediaType

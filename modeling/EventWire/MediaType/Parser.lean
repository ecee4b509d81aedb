import EventWire.MediaType.Basic

/-!
# Reading a media type

The text is cut at the semicolons outside of quotes. The first segment is the
base, every other one that is not blank a parameter. A value is a token or one
quoted text, in which a backslash takes the next character as it is.
-/

namespace EventWire.MediaType

/-- Cuts at the semicolons outside of quotes; `none` when a quote is left open. A
backslash escapes inside of quotes only. -/
def cutSegments : (quoted escaped : Bool) → List Char → Option (List Char × List (List Char))
  | quoted, _, [] => if quoted then none else some ([], [])
  | quoted, true, c :: rest => (cutSegments quoted false rest).map fun (s, ss) => (c :: s, ss)
  | quoted, false, c :: rest =>
    if c = '\\' && quoted then
      (cutSegments quoted true rest).map fun (s, ss) => (c :: s, ss)
    else if c = '"' then
      (cutSegments (!quoted) false rest).map fun (s, ss) => (c :: s, ss)
    else if c = ';' && !quoted then
      (cutSegments quoted false rest).map fun (s, ss) => ([], s :: ss)
    else
      (cutSegments quoted false rest).map fun (s, ss) => (c :: s, ss)

/-- Cuts at the first occurrence of a character. -/
def cutAt (x : Char) : List Char → Option (List Char × List Char)
  | [] => none
  | c :: rest =>
    if c = x then some ([], rest) else (cutAt x rest).map fun (before, after) => (c :: before, after)

/-- Takes backslashes away; one at the very end stands for nothing. -/
def unescapeValue : List Char → List Char
  | [] => []
  | ['\\'] => []
  | '\\' :: c :: rest => c :: unescapeValue rest
  | c :: rest => c :: unescapeValue rest

/-- Reads the value of a parameter that was written as `segment`. -/
def readValue (value segment : List Char) : Except MediaTypeError String :=
  match value with
  | '"' :: inner =>
    if inner.getLast? = some '"' then .ok (String.ofList (unescapeValue inner.dropLast))
    else .error (.unterminatedQuote (String.ofList segment))
  | _ =>
    if isToken (String.ofList value) then .ok (String.ofList value)
    else .error (.malformedParameter (String.ofList segment))

/-- The parameters read so far. -/
structure Reading where
  version : Option String
  encoding : Option String
  others : List (String × String)

/-- Puts a value where its name belongs. -/
def Reading.put (r : Reading) (name value : String) : Except MediaTypeError Reading :=
  if name = versionName then
    if r.version.isSome then .error (.duplicateParameter name)
    else .ok { r with version := some value }
  else if name = encodingName then
    if r.encoding.isSome then .error (.duplicateParameter name)
    else .ok { r with encoding := some value }
  else .ok { r with others := r.others ++ [(name, value)] }

/-- Reads one segment as a parameter; a blank one is none. -/
def Reading.readSegment (r : Reading) (segment : List Char) : Except MediaTypeError Reading :=
  let segment := Text.trimChars segment
  if segment.isEmpty then .ok r
  else
    match cutAt '=' segment with
    | none => .error (.malformedParameter (String.ofList segment))
    | some (name, value) =>
      match readValue (Text.trimChars value) segment with
      | .error e => .error e
      | .ok value => r.put (Text.asciiLower (String.ofList (Text.trimChars name))) value

/-- Reads a media type. -/
def parse (s : String) : Except MediaTypeError MediaType := do
  let text := Text.trimChars s.toList
  if text.isEmpty then throw .empty
  match cutSegments false false text with
  | none => throw (.unterminatedQuote (String.ofList text))
  | some (base, segments) =>
    match cutAt '/' base with
    | none => throw (.missingSubtype (Text.trim (String.ofList base)))
    | some (primary, sub) =>
      let r ← segments.foldlM Reading.readSegment { version := none, encoding := none, others := [] }
      ofParts (String.ofList primary) (String.ofList sub) r.version r.encoding r.others

end EventWire.MediaType

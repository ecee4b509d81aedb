import EventWire.Config.Basic
import EventWire.Text.Ascii
import EventWire.Text.Blank
import EventWire.Toml.Document

/-!
# Where configurations come from

`Config.ofText` reads one from TOML. `Config.load` looks at three variables: one
names a file of TOML, and the other two override its settings. Whatever either of
them gives has been validated.
-/

namespace EventWire

open Toml (Value Entries)

/-- True for an empty array and an empty table. -/
def Toml.Value.isHollow : Value → Bool
  | .list items => items.isEmpty
  | .table _ entries => entries.isEmpty
  | _ => false

/-- The codec that a value names: by its word, or by a table that has the word as
its only key and nothing under it. -/
def CodecKind.ofValue? : Value → Option CodecKind
  | .text s => ofWord? s
  | .table _ [(s, v)] => if v.isHollow then ofWord? s else none
  | _ => none

/-- The mark of a default, which may be missing. -/
def Binding.mark? : Option Value → Option Bool
  | none => some false
  | some (.truth b) => some b
  | some _ => none

/-- The binding that a table describes; keys that mean nothing are skipped. -/
def Binding.ofEntries? (entries : Entries) : Option Binding :=
  match entries.get? "name", entries.get? "codec" with
  | some (.text name), some codec => do
    let codec ← CodecKind.ofValue? codec
    let marked ← mark? (entries.get? "default")
    return { name, codec, marked }
  | _, _ => none

/-- The binding that a value describes: a table, or its values in an array. -/
def Binding.ofValue? : Value → Option Binding
  | .table _ entries => ofEntries? entries
  | .list (.text name :: codec :: rest) => do
    let codec ← CodecKind.ofValue? codec
    let marked ← mark? rest.head?
    return { name, codec, marked }
  | _ => none

namespace Config

/-- The configuration after one of its settings; no other settings are known. -/
def set? (c : Config) : String × Value → Option Config
  | ("encoding", .text encoding) => some { c with encoding }
  | ("xml_fragment", .truth fragment) => some { c with fragment }
  | ("types", .list items) => (items.mapM Binding.ofValue?).map fun bindings => { c with bindings }
  | ("types", .rows items) => (items.mapM Binding.ofEntries?).map fun bindings => { c with bindings }
  | _ => none

/-- Reads a configuration and validates it. -/
def ofText (text : String) : Except ConfigError Config :=
  match (Toml.parse? text).bind fun entries => entries.foldlM set? standard with
  | none => .error .malformed
  | some c => do
    c.validate
    return c

/-- The variable that names the file. -/
def fileKey : String := "ESC_SERIALIZATION_CONFIG"

/-- The variable that overrides the charset. -/
def encodingKey : String := "ESC_ENCODING"

/-- The variable that overrides the way XML is written. -/
def fragmentKey : String := "ESC_XML_FRAGMENT"

/-- The meaning of a flag, whatever its case and the blanks around it. -/
def flag? (s : String) : Option Bool :=
  let word := Text.asciiLower (Text.trim s)
  if word = "1" || word = "true" || word = "yes" then some true
  else if word = "0" || word = "false" || word = "no" then some false
  else none

/-- Reads a configuration from a file; `read?` gives the text of a file that can be
read. -/
def ofFile (read? : String → Option String) (path : String) : Except ConfigError Config :=
  match read? path with
  | none => .error .unreadable
  | some text => ofText text

/-- Overrides the charset, which has to be a known one. -/
def overrideEncoding (c : Config) : Option String → Except ConfigError Config
  | none => .ok c
  | some encoding =>
    match Charset.ofName encoding with
    | .error e => .error (.charset e)
    | .ok _ => .ok { c with encoding }

/-- Overrides the way XML is written. -/
def overrideFragment (c : Config) : Option String → Except ConfigError Config
  | none => .ok c
  | some s =>
    match flag? s with
    | none => .error (.invalidFlag fragmentKey s)
    | some fragment => .ok { c with fragment }

/-- The configuration that the variables ask for. -/
def load (read? : String → Option String) (lookup? : String → Option String) :
    Except ConfigError Config := do
  let c ← match lookup? fileKey with
    | some path => ofFile read? path
    | none => .ok standard
  let c ← c.overrideEncoding (lookup? encodingKey)
  c.overrideFragment (lookup? fragmentKey)

end Config

end EventWire

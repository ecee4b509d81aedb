import EventWire.Charset
import EventWire.Name

/-!
# Configurations

A configuration binds types to codecs and sets what the codecs have in common: a
charset, and whether XML is written without a declaration. `validate` accepts the
usable tables: the charset is known, every bound name is a name of a type, a type
is bound to a base type once only, and every bound type has one default, which is
the one binding so marked or else its only binding.
-/

namespace EventWire

/-- The codecs a type can be bound to. -/
inductive CodecKind where
  | json
  | text
  | binary
  | typedJson
  | xml
  deriving DecidableEq, Repr

namespace CodecKind

/-- The word for a codec in a configuration. -/
def word : CodecKind → String
  | .json => "json"
  | .text => "text"
  | .binary => "binary"
  | .typedJson => "typed-json"
  | .xml => "xml"

/-- The codecs, in order. -/
def all : List CodecKind := [.json, .text, .binary, .typedJson, .xml]

/-- The codec of a word. -/
def ofWord? (s : String) : Option CodecKind :=
  all.find? (·.word = s)

theorem ofWord?_word (k : CodecKind) : ofWord? k.word = some k := by
  cases k <;> decide

/-- The base type of the media types that a codec writes. -/
def base : CodecKind → String
  | .json => "application/json"
  | .typedJson => "application/json"
  | .text => "text/plain"
  | .binary => "application/octet-stream"
  | .xml => "application/xml"

end CodecKind

/-- Binds a type to a codec; `marked` when it says that it is the default. -/
structure Binding where
  name : String
  codec : CodecKind
  marked : Bool
  deriving DecidableEq, Repr

/-- A configuration. -/
structure Config where
  encoding : String
  fragment : Bool
  bindings : List Binding
  deriving DecidableEq, Repr

/-- Why a configuration cannot be had. -/
inductive ConfigError where
  | unreadable
  | malformed
  | charset (e : CharsetError)
  | typeName (e : IdError)
  | invalidFlag (key value : String)
  | duplicateBinding (name base : String)
  | conflictingDefaults (name : String)
  | missingDefault (name : String)
  deriving DecidableEq

/-- The text of an error; what a reader of files or of TOML would say is left to it. -/
def ConfigError.message? : ConfigError → Option String
  | .unreadable => none
  | .malformed => none
  | .charset e => some e.message
  | .typeName e => e.message?
  | .invalidFlag key value => some s!"invalid value '{value}' for {key}"
  | .duplicateBinding name base => some s!"type '{name}' is bound more than once to {base}"
  | .conflictingDefaults name => some s!"type '{name}' has more than one default binding"
  | .missingDefault name => some s!"type '{name}' has several bindings but no default"

namespace Config

/-- UTF-8, with declarations, and nothing bound. -/
def standard : Config where
  encoding := Charset.utf8.name
  fragment := false
  bindings := []

/-- The configured charset. -/
def charset (c : Config) : Except ConfigError Charset :=
  (Charset.ofName c.encoding).mapError .charset

/-- Checks one binding against the earlier ones. -/
def checkBinding (earlier : List Binding) (b : Binding) : Except ConfigError Unit :=
  match Name.ofText .dataType b.name with
  | .error e => .error (.typeName e)
  | .ok _ =>
    if earlier.any fun e => e.name = b.name && e.codec.base = b.codec.base then
      .error (.duplicateBinding b.name b.codec.base)
    else .ok ()

/-- Checks the bindings in order, each against those before it. -/
def checkBindings (earlier : List Binding) : List Binding → Except ConfigError Unit
  | [] => .ok ()
  | b :: rest => do
    checkBinding earlier b
    checkBindings (earlier ++ [b]) rest

/-- The bindings of a name, with their positions. -/
def bindingsOf (c : Config) (name : String) : List (Binding × Nat) :=
  c.bindings.zipIdx.filter fun b => b.1.name = name

/-- The position of a name's default binding: the one that is marked, or the only
one. -/
def defaultOf (c : Config) (name : String) : Except ConfigError Nat :=
  match (c.bindingsOf name).filter (·.1.marked), c.bindingsOf name with
  | [(_, i)], _ => .ok i
  | [], [(_, i)] => .ok i
  | [], _ => .error (.missingDefault name)
  | _, _ => .error (.conflictingDefaults name)

/-- Every bound name with the position of its default binding. -/
def defaults (c : Config) : Except ConfigError (List (String × Nat)) := do
  checkBindings [] c.bindings
  c.bindings.mapM fun b => do
    let i ← c.defaultOf b.name
    return (b.name, i)

/-- Checks the charset and then the bindings. -/
def validate (c : Config) : Except ConfigError Unit := do
  let _ ← c.charset
  let _ ← c.defaults
  return ()

end Config

end EventWire

import EventWire.Config.Basic
import EventWire.Registry.Basic

/-!
# Configured registries

Each binding becomes a codec of the configured charset, which the registry reads
with, and the default binding of a type is what the registry writes it with.
-/

namespace EventWire

/-- The codec that a binding asks for. -/
def Binding.toCodec (b : Binding) (charset : Charset) (fragment : Bool) (classes : ClassTable) :
    Codec :=
  match b.codec with
  | .json => .json charset
  | .text => .text charset
  | .binary => .binary .octetStream
  | .typedJson => .typedJson classes charset
  | .xml => .xml (((XmlCodec.new classes).withCharset charset).withFragment fragment)

/-- The registry that a configuration describes, with classes for the codecs that
need them. -/
def Config.registry (c : Config) (classes : ClassTable) : Except ConfigError (Registry Codec) := do
  let charset ← c.charset
  let defaults ← c.defaults
  c.bindings.zipIdx.foldlM
    (fun registry (b, i) =>
      match Name.ofText .dataType b.name with
      | .error e => .error (.typeName e)
      | .ok t =>
        let codec := b.toCodec charset c.fragment classes
        if defaults.lookup b.name = some i then .ok (registry.addDefault t codec)
        else .ok (registry.addReader t codec.mediaType codec))
    Registry.empty

end EventWire

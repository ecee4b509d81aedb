import EventWire.Config.Registry
import EventWire.Proofs.Config.Usable
import EventWire.Proofs.Registry.Calls

/-!
# What a configured registry holds

A configuration stands for a list of calls: each binding registers the codec that it
asks for, and the default binding of a type registers it for writing, too. The
configured registry is what these calls put together (`registry_eq`), so it holds what
they register, type by type (`registered_calls`).

No type is bound twice to codecs of one base type, and the base type is part of the media
type. So what a configured registry writes is read by the codec that wrote it, which is the
codec of a binding (`exists_binding_of_find`).
-/

namespace EventWire

theorem Name.ext_text {kind : IdKind} {a b : Name kind} (h : a.text = b.text) : a = b := by
  cases a
  cases b
  cases h
  rfl

theorem Name.text_of_ofText {kind : IdKind} {s : String} {n : Name kind}
    (h : ofText kind s = .ok n) : n.text = s := by
  unfold ofText at h
  split at h
  · cases h; rfl
  · cases h

theorem Writers.find_eq_ok {α : Type} {w : Writers α} {t : DataType} {a : α} :
    w.find t = .ok a ↔ w.get? t = some a := by
  unfold find
  cases w.get? t with
  | none => simp
  | some b => simp

/-! ## Bindings as calls -/

/-- The call that a binding at some position stands for. -/
def Config.call (c : Config) (charset : Charset) (defaults : List (String × Nat))
    (classes : ClassTable) (b : Binding × Nat) : Except ConfigError (Registry.Call Codec) :=
  match Name.ofText .dataType b.1.name with
  | .error e => .error (.typeName e)
  | .ok t =>
    let codec := b.1.toCodec charset c.fragment classes
    .ok (if defaults.lookup b.1.name = some b.2 then .addDefault t codec
      else .addReader t codec.mediaType codec)

/-- **A configured registry is put together by the calls of its bindings.** -/
theorem Config.registry_eq (c : Config) (classes : ClassTable) :
    c.registry classes = (do
      let charset ← c.charset
      let defaults ← c.defaults
      (c.bindings.zipIdx.mapM (c.call charset defaults classes)).map Registry.ofCalls) := by
  rw [registry]
  cases c.charset with
  | error e => rfl
  | ok charset =>
    cases c.defaults with
    | error e => rfl
    | ok defaults =>
      refine foldlM_eq_mapM ?_ _ Registry.empty
      rintro r ⟨b, i⟩
      dsimp only [call]
      cases Name.ofText .dataType b.name with
      | error e => rfl
      | ok t =>
        dsimp only
        split
        · rfl
        · rfl

theorem Config.registry_eq_ok {c : Config} {classes : ClassTable} {r : Registry Codec} :
    c.registry classes = .ok r ↔ ∃ charset defaults calls,
      c.charset = .ok charset ∧ c.defaults = .ok defaults ∧
        c.bindings.zipIdx.mapM (c.call charset defaults classes) = .ok calls ∧
          Registry.ofCalls calls = r := by
  rw [registry_eq]
  constructor
  · intro h
    obtain ⟨charset, hcharset, hrest⟩ := bind_eq_ok.mp h
    obtain ⟨defaults, hdefaults, hmade⟩ := bind_eq_ok.mp hrest
    obtain ⟨calls, hcalls, hr⟩ := map_eq_ok.mp hmade
    exact ⟨charset, defaults, calls, hcharset, hdefaults, hcalls, hr⟩
  · rintro ⟨charset, defaults, calls, hcharset, hdefaults, hcalls, rfl⟩
    rw [hcharset, ok_bind, hdefaults, ok_bind, hcalls]
    rfl

/-- What a binding gives to read a type with, if that is the type of its name. -/
def Config.reader? (c : Config) (charset : Charset) (classes : ClassTable) (t : DataType)
    (b : Binding) : Option (MediaType × Codec) :=
  if b.name = t.text then
    some ((b.toCodec charset c.fragment classes).mediaType, b.toCodec charset c.fragment classes)
  else none

section Calls

variable {c : Config} {charset : Charset} {defaults : List (String × Nat)} {classes : ClassTable}

theorem Config.reader?_call {b : Binding × Nat} {call : Registry.Call Codec}
    (h : c.call charset defaults classes b = .ok call) (t : DataType) :
    call.reader? t = c.reader? charset classes t b.1 := by
  unfold Config.call at h
  split at h
  · cases h
  · next u hu =>
    have hname : u = t ↔ b.1.name = t.text := by
      rw [← Name.text_of_ofText hu]
      exact ⟨congrArg _, Name.ext_text⟩
    rw [Config.reader?]
    simp only [← hname]
    cases h
    split
    · rfl
    · rfl

/-- **The readers of a type are those that its bindings give**, in order. -/
theorem Config.registered_calls {calls : List (Registry.Call Codec)}
    (h : c.bindings.zipIdx.mapM (c.call charset defaults classes) = .ok calls) (t : DataType) :
    Registry.registered calls t = c.bindings.filterMap (c.reader? charset classes t) := by
  have hpositions : Registry.registered calls t
      = c.bindings.zipIdx.filterMap fun b => c.reader? charset classes t b.1 :=
    filterMap_of_mapM (fun _ _ hcall => reader?_call hcall t) h
  have hbindings : c.bindings = c.bindings.zipIdx.map Prod.fst := (List.zipIdx_map_fst 0 _).symm
  rw [hpositions, hbindings, List.filterMap_map, ← hbindings]
  rfl

end Calls

/-! ## One codec for a base type -/

/-- The base type is part of the media type. -/
theorem Binding.base_toCodec (b : Binding) (charset : Charset) (fragment : Bool)
    (classes : ClassTable) :
    (b.toCodec charset fragment classes).mediaType.base = b.codec.base := by
  unfold toCodec
  cases b.codec with
  | json => cases charset <;> rfl
  | text => cases charset <;> rfl
  | binary => rfl
  | typedJson => cases charset <;> rfl
  | xml => cases charset <;> rfl

/-- The readers of a type are under media types that differ. -/
theorem Config.nodup_readers {c : Config} {defaults : List (String × Nat)}
    (hdefaults : c.defaults = .ok defaults) (charset : Charset) (classes : ClassTable)
    (t : DataType) : ((c.bindings.filterMap (c.reader? charset classes t)).map (·.1)).Nodup := by
  obtain ⟨hcheck, -⟩ := exists_defaults.mp ⟨defaults, hdefaults⟩
  obtain ⟨-, -, hbases⟩ := checkBindings_eq_ok.mp hcheck
  rw [List.Nodup, List.pairwise_map, List.pairwise_filterMap]
  refine hbases.imp ?_
  intro a b hbases x hx y hy hsame
  unfold reader? at hx hy
  split at hx
  · next ha =>
    split at hy
    · next hb =>
      cases hx
      cases hy
      have hbase := congrArg MediaType.base hsame
      rw [Binding.base_toCodec, Binding.base_toCodec] at hbase
      exact hbases (ha.trans hb.symm) hbase
    · cases hy
  · cases hx

/-! ## What is written and read -/

/-- **A configured registry writes a type with the codec of one of its bindings, and
reads with the same codec** under the media type of that codec. -/
theorem Config.exists_binding_of_find {c : Config} {classes : ClassTable} {r : Registry Codec}
    (h : c.registry classes = .ok r) {t : DataType} {codec : Codec}
    (hfind : r.writers.find t = .ok codec) :
    (∃ b ∈ c.bindings, b.name = t.text ∧
      ∃ charset, c.charset = .ok charset ∧ codec = b.toCodec charset c.fragment classes) ∧
    r.readers.find t (some codec.mediaType) = .ok codec := by
  obtain ⟨charset, defaults, calls, hcharset, hdefaults, hcalls, rfl⟩ := registry_eq_ok.mp h
  have hregistered := registered_calls hcalls t
  have hlast := (Registry.holds_ofCalls calls).writers t ▸ Writers.find_eq_ok.mp hfind
  have hmem := Registry.mem_registered_of_lastWriter? hlast
  constructor
  · rw [hregistered] at hmem
    obtain ⟨b, hb, hreader⟩ := List.mem_filterMap.mp hmem
    unfold reader? at hreader
    split at hreader
    · next hname =>
      have hcodec := (Prod.mk.inj (Option.some.inj hreader)).2
      exact ⟨b, hb, hname, charset, hcharset, hcodec.symm⟩
    · cases hreader
  · refine Readers.find_of_held? (((Registry.holds_ofCalls calls).readers t _).trans ?_)
    refine Registry.lastReader?_of_mem ?_ hmem
    rw [hregistered]
    exact nodup_readers hdefaults charset classes t

/-- Every writer is the codec of some binding. -/
def Registry.WritesBindings (classes : ClassTable) (r : Registry Codec) : Prop :=
  ∀ t codec, r.writers.get? t = some codec →
    ∃ (b : Binding) (charset : Charset) (fragment : Bool),
      codec = b.toCodec charset fragment classes

/-- **A configured registry writes with codecs of bindings.** -/
theorem Config.writesBindings_registry {c : Config} {classes : ClassTable} {r : Registry Codec}
    (h : c.registry classes = .ok r) : r.WritesBindings classes := by
  intro t codec hget
  have hfind := Writers.find_eq_ok.mpr hget
  obtain ⟨⟨b, -, -, charset, -, hcodec⟩, -⟩ := exists_binding_of_find h hfind
  exact ⟨b, charset, c.fragment, hcodec⟩

end EventWire

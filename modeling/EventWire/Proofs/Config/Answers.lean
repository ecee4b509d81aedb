import EventWire.Proofs.Config.Registry
import EventWire.Proofs.Registry.Reading

/-!
# What a configured registry answers

A configuration that is accepted has a registry (`exists_registry`), and what the registry
answers can be read off the table of bindings (`Answers`): a type is written with the codec
of its default binding, which is also what it is read with when no media type is given, and
a media type is read with the codec of the one binding whose codec has its base, if that
codec has the encoding asked for, or none is asked for.

Nothing of this mentions an order. So the bindings may come in any
(`Answers.agrees`), and of a media type only base and encoding count.
-/

namespace EventWire

section Lookups

variable {α : Type}

theorem Writers.find_congr {w w' : Writers α} {t : DataType}
    (h : ∀ a, w.find t = .ok a ↔ w'.find t = .ok a) : w.find t = w'.find t := by
  have hget : w.get? t = w'.get? t := Option.ext fun a => by
    rw [← Writers.find_eq_ok, ← Writers.find_eq_ok]
    exact h a
  rw [find, find, hget]

theorem Writers.toOption_find (w : Writers α) (t : DataType) :
    (w.find t).toOption = w.get? t := by
  unfold find
  cases w.get? t with
  | none => rfl
  | some a => rfl

/-- Registries that give the same answers. -/
structure Registry.Agrees (r r' : Registry α) : Prop where
  writer : ∀ t, r.writers.find t = r'.writers.find t
  default : ∀ t, r.readers.default? t = r'.readers.default? t
  reader : ∀ t m, r.readers.find t m = r'.readers.find t m

/-- Of many entries that are all one, the last is that one. -/
theorem getLast?_eq_some_iff_mem {l : List α} (h : ∀ a ∈ l, ∀ b ∈ l, a = b) {a : α} :
    l.getLast? = some a ↔ a ∈ l := by
  constructor
  · exact List.mem_of_getLast?
  · intro ha
    cases hlast : l.getLast? with
    | none =>
      rw [List.getLast?_eq_none_iff.mp hlast] at ha
      cases ha
    | some b => rw [h b (List.mem_of_getLast? hlast) a ha]

end Lookups

namespace Codec

/-- The kind of a codec. -/
def kind : Codec → CodecKind
  | .json _ => .json
  | .text _ => .text
  | .binary _ => .binary
  | .typedJson _ _ => .typedJson
  | .xml _ => .xml

/-- Whether a codec for XML leaves the declaration out. -/
def fragment? : Codec → Option Bool
  | .xml x => some x.fragment
  | _ => none

end Codec

/-- The media type of a binding's codec names the configured charset, but for bytes. -/
theorem Binding.encoding_toCodec (b : Binding) (charset : Charset) (fragment : Bool)
    (classes : ClassTable) :
    (b.toCodec charset fragment classes).mediaType.encoding
      = if b.codec = .binary then none else some charset.name := by
  unfold toCodec
  cases b.codec with
  | json => rfl
  | text => rfl
  | binary => rfl
  | typedJson => rfl
  | xml => rfl

namespace Config

/-- The codec of a binding of a configuration. -/
def codecOf (c : Config) (charset : Charset) (classes : ClassTable) (b : Binding) : Codec :=
  b.toCodec charset c.fragment classes

/-- The codec is of the kind that the binding asks for, and is set as the configuration
says: its charset, if it has one, and whether it leaves declarations out, if it is for XML. -/
theorem codecOf_settings (c : Config) (charset : Charset) (classes : ClassTable) (b : Binding) :
    (c.codecOf charset classes b).kind = b.codec ∧
      (c.codecOf charset classes b).charset?
        = (if b.codec = .binary then none else some charset) ∧
      (c.codecOf charset classes b).fragment?
        = (if b.codec = .xml then some c.fragment else none) := by
  unfold codecOf Binding.toCodec
  cases b.codec with
  | _ => exact ⟨rfl, rfl, rfl⟩

/-- The codec of a binding is there for a media type: the base is that of the codec, and no
encoding is asked for or, of a codec for text, the charset by its name in any case. -/
def Covers (c : Config) (charset : Charset) (classes : ClassTable) (b : Binding)
    (m : MediaType) : Prop :=
  (c.codecOf charset classes b).mediaType.sameBase m = true ∧
    (m.encoding = none ∨ b.codec ≠ .binary ∧
      ∃ e, m.encoding = some e ∧ Text.sameIgnoringCase charset.name e = true)

/-- A registry whose answers are those of the table of bindings. -/
structure Answers (c : Config) (charset : Charset) (classes : ClassTable) (r : Registry Codec) :
    Prop where
  /-- Bound types can be written, and no others. -/
  writes : ∀ t, (∃ codec, r.writers.find t = .ok codec) ↔ ∃ b ∈ c.bindings, b.name = t.text
  writer : ∀ t codec, r.writers.find t = .ok codec ↔
    ∃ b, c.IsDefault b ∧ b.name = t.text ∧ codec = c.codecOf charset classes b
  default : ∀ t, r.readers.default? t = (r.writers.find t).toOption.map Codec.mediaType
  readsDefault : ∀ t, (r.readers.find t none).toOption = (r.writers.find t).toOption
  reader : ∀ t m codec, r.readers.find t (some m) = .ok codec ↔
    ∃ b ∈ c.bindings, b.name = t.text ∧ c.Covers charset classes b m ∧
      codec = c.codecOf charset classes b
  /-- Version and further parameters do not count. -/
  readsAlike : ∀ t m m', m.sameBase m' = true → m.encoding = m'.encoding →
    (r.readers.find t (some m)).toOption = (r.readers.find t (some m')).toOption

variable {c : Config} {charset : Charset} {classes : ClassTable} {defaults : List (String × Nat)}
  {calls : List (Registry.Call Codec)} {t : DataType} {m : MediaType} {codec : Codec}

theorem covers_iff {b : Binding} :
    c.Covers charset classes b m ↔ (c.codecOf charset classes b).mediaType.serves m = true := by
  rw [Covers, MediaType.serves_iff, codecOf, Binding.encoding_toCodec]
  split
  · next hbinary => simp [hbinary]
  · next hbinary => simp [hbinary]

/-- Of a media type, base and encoding count. -/
theorem covers_congr {m' : MediaType} (hsame : m.sameBase m' = true)
    (hencoding : m.encoding = m'.encoding) (b : Binding) :
    c.Covers charset classes b m ↔ c.Covers charset classes b m' := by
  obtain ⟨hprimary, hsub⟩ := Bool.and_eq_true _ _ ▸ hsame
  rw [Covers, Covers, MediaType.sameBase, MediaType.sameBase, of_decide_eq_true hprimary,
    of_decide_eq_true hsub, hencoding]

/-- Codecs that are there for one media type have one base. -/
theorem base_eq_of_covers {a b : Binding} (ha : c.Covers charset classes a m)
    (hb : c.Covers charset classes b m) : a.codec.base = b.codec.base := by
  have hsame (d : Binding) (hd : c.Covers charset classes d m) : d.codec.base = m.base :=
    (Binding.base_toCodec d charset c.fragment classes).symm.trans
      (MediaType.base_eq_of_sameBase hd.1)
  exact (hsame a ha).trans (hsame b hb).symm

/-! ## The calls of the bindings -/

/-- A binding gives its type a writer if it is the default binding, and with it a default
media type. -/
theorem writer?_call {b : Binding × Nat} {call : Registry.Call Codec}
    (h : c.call charset defaults classes b = .ok call) (t : DataType) :
    call.writer? t
        = (if b.1.name = t.text ∧ defaults.lookup b.1.name = some b.2 then
            some (c.codecOf charset classes b.1) else none) ∧
      call.default? t = (call.writer? t).map Codec.mediaType := by
  unfold Config.call at h
  split at h
  · cases h
  · next u hu =>
    have hname : u = t ↔ b.1.name = t.text := by
      rw [← Name.text_of_ofText hu]
      exact ⟨congrArg _, Name.ext_text⟩
    dsimp only at h
    split at h
    · next hdefault =>
      cases h
      simp only [Registry.Call.writer?, Registry.Call.default?, hname, hdefault, and_true]
      refine ⟨rfl, ?_⟩
      split
      · rfl
      · rfl
    · next hdefault =>
      cases h
      rw [if_neg fun hboth => hdefault hboth.2]
      exact ⟨rfl, rfl⟩

/-- **The writer of a type is the codec of its default binding.** -/
theorem lastWriter?_iff (husable : c.Usable) (hdefaults : c.defaults = .ok defaults)
    (hcalls : c.bindings.zipIdx.mapM (c.call charset defaults classes) = .ok calls) :
    Registry.lastWriter? calls t = some codec ↔
      ∃ b, c.IsDefault b ∧ b.name = t.text ∧ codec = c.codecOf charset classes b := by
  have hmem (w : Codec) : w ∈ calls.filterMap (·.writer? t) ↔
      ∃ b, c.IsDefault b ∧ b.name = t.text ∧ w = c.codecOf charset classes b := by
    rw [filterMap_of_mapM (fun _ _ hcall => (writer?_call hcall t).1) hcalls, List.mem_filterMap]
    constructor
    · rintro ⟨⟨b, i⟩, hb, hw⟩
      split at hw
      · next hboth =>
        obtain ⟨hname, hlookup⟩ := hboth
        have hi := (lookup_defaults hdefaults (List.fst_mem_of_mem_zipIdx hb)).mp hlookup
        obtain ⟨hdefault, -⟩ := husable.isDefault_iff.mpr ⟨i, hb, rfl, hi⟩
        exact ⟨b, hdefault, hname, (Option.some.inj hw).symm⟩
      · cases hw
    · rintro ⟨b, hdefault, hname, rfl⟩
      obtain ⟨i, hb, -, hi⟩ := husable.isDefault_iff.mp ⟨hdefault, rfl⟩
      have hlookup := (lookup_defaults hdefaults hdefault.1).mpr hi
      exact ⟨(b, i), hb, if_pos ⟨hname, hlookup⟩⟩
  rw [Registry.lastWriter?, getLast?_eq_some_iff_mem, hmem]
  intro v hv w hw
  obtain ⟨a, ha, haname, rfl⟩ := (hmem v).mp hv
  obtain ⟨b, hb, hbname, rfl⟩ := (hmem w).mp hw
  rw [husable.isDefault_unique ha hb (haname.trans hbname.symm)]

theorem lastDefault?_eq
    (hcalls : c.bindings.zipIdx.mapM (c.call charset defaults classes) = .ok calls) :
    Registry.lastDefault? calls t = (Registry.lastWriter? calls t).map Codec.mediaType := by
  rw [Registry.lastDefault?, Registry.lastWriter?, ← List.getLast?_map, List.map_filterMap,
    filterMap_of_mapM (fun b call hcall => (writer?_call hcall t).2.trans
      (congrArg _ (writer?_call hcall t).1)) hcalls,
    filterMap_of_mapM (fun b call hcall => congrArg (Option.map Codec.mediaType)
      (writer?_call hcall t).1) hcalls]

/-- **The readers of a type are the codecs of its bindings**, under their media types. -/
theorem lastReader?_iff (hdefaults : c.defaults = .ok defaults)
    (hcalls : c.bindings.zipIdx.mapM (c.call charset defaults classes) = .ok calls) :
    Registry.lastReader? calls t m = some codec ↔
      ∃ b ∈ c.bindings, b.name = t.text ∧ codec = c.codecOf charset classes b ∧
        codec.mediaType = m := by
  have hregistered := registered_calls hcalls t
  have hnodup : ((Registry.registered calls t).map (·.1)).Nodup :=
    hregistered ▸ nodup_readers hdefaults charset classes t
  have hmem : Registry.lastReader? calls t m = some codec ↔
      (m, codec) ∈ Registry.registered calls t :=
    ⟨Registry.mem_registered_of_lastReader?, Registry.lastReader?_of_mem hnodup⟩
  rw [hmem, hregistered, List.mem_filterMap]
  constructor
  · rintro ⟨b, hb, hreader⟩
    rw [reader?] at hreader
    split at hreader
    · next hname =>
      cases hreader
      exact ⟨b, hb, hname, rfl, rfl⟩
    · cases hreader
  · rintro ⟨b, hb, hname, rfl, rfl⟩
    exact ⟨b, hb, if_pos hname⟩

/-! ## Accepted configurations -/

/-- **A configuration that is accepted has a registry.** -/
theorem exists_registry (h : c.Usable) (classes : ClassTable) :
    ∃ r, c.registry classes = .ok r := by
  obtain ⟨charset, hcharset, hrest⟩ := bind_eq_ok.mp (validate_iff.mpr h)
  obtain ⟨defaults, hdefaults, -⟩ := bind_eq_ok.mp hrest
  have hcall : ∀ b ∈ c.bindings.zipIdx, ∃ call, c.call charset defaults classes b = .ok call := by
    intro b hb
    obtain ⟨t, ht⟩ := h.names b.1 (List.fst_mem_of_mem_zipIdx hb)
    rw [call, ht]
    exact ⟨_, rfl⟩
  obtain ⟨calls, hcalls⟩ := exists_mapM_eq_ok.mpr hcall
  exact ⟨_, registry_eq_ok.mpr ⟨charset, defaults, calls, hcharset, hdefaults, hcalls, rfl⟩⟩

theorem usable_of_registry {r : Registry Codec} (h : c.registry classes = .ok r) : c.Usable := by
  obtain ⟨charset, defaults, calls, hcharset, hdefaults, -, -⟩ := registry_eq_ok.mp h
  refine validate_iff.mp ?_
  rw [validate, hcharset, ok_bind, hdefaults]
  rfl

section Configured

variable {r : Registry Codec}

theorem find_writer_iff (h : c.registry classes = .ok r) (hcharset : c.charset = .ok charset) :
    r.writers.find t = .ok codec ↔
      ∃ b, c.IsDefault b ∧ b.name = t.text ∧ codec = c.codecOf charset classes b := by
  obtain ⟨charset', defaults, calls, hcharset', hdefaults, hcalls, rfl⟩ := registry_eq_ok.mp h
  obtain rfl : charset' = charset := Except.ok.inj (hcharset'.symm.trans hcharset)
  rw [Writers.find_eq_ok, (Registry.holds_ofCalls calls).writers,
    lastWriter?_iff (usable_of_registry h) hdefaults hcalls]

theorem default?_registry (h : c.registry classes = .ok r) (t : DataType) :
    r.readers.default? t = (r.writers.find t).toOption.map Codec.mediaType := by
  obtain ⟨charset, defaults, calls, -, -, hcalls, rfl⟩ := registry_eq_ok.mp h
  have hholds := Registry.holds_ofCalls calls
  rw [Writers.toOption_find, hholds.defaults, hholds.writers, lastDefault?_eq hcalls]

theorem find_reader_iff (h : c.registry classes = .ok r) (hcharset : c.charset = .ok charset) :
    r.readers.find t (some m) = .ok codec ↔
      ∃ b ∈ c.bindings, b.name = t.text ∧ c.Covers charset classes b m ∧
        codec = c.codecOf charset classes b := by
  have husable := usable_of_registry h
  obtain ⟨charset', defaults, calls, hcharset', hdefaults, hcalls, rfl⟩ := registry_eq_ok.mp h
  obtain rfl : charset' = charset := Except.ok.inj (hcharset'.symm.trans hcharset)
  have hholds := Registry.holds_ofCalls calls
  have hfound (w : Codec) (hfind : (Registry.ofCalls calls).readers.find t (some m) = .ok w) :
      ∃ b ∈ c.bindings, b.name = t.text ∧ c.Covers charset' classes b m ∧
        w = c.codecOf charset' classes b := by
    obtain ⟨k, hlast, hserves⟩ := hholds.exists_registered_of_find hfind
    obtain ⟨b, hb, hname, rfl, rfl⟩ := (lastReader?_iff hdefaults hcalls).mp hlast
    exact ⟨b, hb, hname, covers_iff.mpr hserves, rfl⟩
  refine ⟨hfound codec, ?_⟩
  rintro ⟨b, hb, hname, hcovers, rfl⟩
  have hlast := (lastReader?_iff hdefaults hcalls).mpr ⟨b, hb, hname, rfl, rfl⟩
  obtain ⟨w, hw⟩ := hholds.exists_find_of_serves hlast (covers_iff.mp hcovers)
  -- What is found has the same base, and so it is the codec of the same binding.
  obtain ⟨a, ha, haname, hcoversToo, rfl⟩ := hfound w hw
  obtain rfl := husable.eq_of_base ha hb (haname.trans hname.symm)
    (base_eq_of_covers hcoversToo hcovers)
  exact hw

/-- **A configured registry answers as the table of bindings says.** -/
theorem answers_of_registry (h : c.registry classes = .ok r) (hcharset : c.charset = .ok charset) :
    c.Answers charset classes r where
  writes t := by
    constructor
    · rintro ⟨codec, hfind⟩
      obtain ⟨b, hb, hname, -⟩ := (find_writer_iff h hcharset).mp hfind
      exact ⟨b, hb.1, hname⟩
    · rintro ⟨b, hb, hname⟩
      obtain ⟨d, hd, hdname⟩ := (usable_of_registry h).exists_isDefault hb
      exact ⟨_, (find_writer_iff h hcharset).mpr ⟨d, hd, hdname.trans hname, rfl⟩⟩
  writer _ _ := find_writer_iff h hcharset
  default := default?_registry h
  readsDefault t := by
    rw [Readers.find_none, default?_registry h]
    cases hfind : r.writers.find t with
    | error e => rfl
    | ok codec =>
      obtain ⟨b, hb, hname, rfl⟩ := (find_writer_iff h hcharset).mp hfind
      have hcovers := covers_iff.mpr (c.codecOf charset classes b).mediaType.serves_refl
      exact congrArg Except.toOption
        ((find_reader_iff h hcharset).mpr ⟨b, hb.1, hname, hcovers, rfl⟩)
  reader _ _ _ := find_reader_iff h hcharset
  readsAlike t m m' hsame hencoding := by
    refine Option.ext fun codec => ?_
    rw [toOption_eq_some, toOption_eq_some, find_reader_iff h hcharset, find_reader_iff h hcharset]
    simp only [covers_congr hsame hencoding]

end Configured

/-! ## Orders of bindings -/

/-- Registries of one table answer alike. -/
theorem Answers.agrees {c' : Config} {r r' : Registry Codec} (h : c.Answers charset classes r)
    (h' : c'.Answers charset classes r') (hfragment : c'.fragment = c.fragment)
    (hbindings : c'.bindings.Perm c.bindings) : r'.Agrees r := by
  have hcodec (b : Binding) : c'.codecOf charset classes b = c.codecOf charset classes b := by
    rw [codecOf, codecOf, hfragment]
  have hdefault (b : Binding) : c'.IsDefault b ↔ c.IsDefault b := by
    rw [IsDefault, IsDefault, hbindings.mem_iff]
    simp only [hbindings.mem_iff]
  have hwriter (t : DataType) : r'.writers.find t = r.writers.find t := by
    refine Writers.find_congr fun codec => ?_
    rw [h'.writer, h.writer]
    simp only [hdefault, hcodec]
  have hmarked (t : DataType) : r'.readers.default? t = r.readers.default? t := by
    rw [h'.default, h.default, hwriter]
  have hreader (t : DataType) (m : MediaType) :
      r'.readers.find t (some m) = r.readers.find t (some m) := by
    refine Readers.find_congr fun codec => ?_
    rw [h'.reader, h.reader]
    simp only [Covers, hcodec, hbindings.mem_iff]
  exact {
    writer := hwriter
    default := hmarked
    reader := fun t m => by
      cases m with
      | none =>
        rw [Readers.find_none, Readers.find_none, hmarked]
        cases r.readers.default? t with
        | none => rfl
        | some m => exact hreader t m
      | some m => exact hreader t m }

/-- **A configuration that is accepted has a registry that answers as the table of bindings
says, in whatever order they come.** -/
theorem registry_answers (h : c.validate = .ok ()) (classes : ClassTable) :
    ∃ charset r, c.charset = .ok charset ∧ c.registry classes = .ok r ∧
      c.Answers charset classes r ∧
      ∀ c' : Config, c'.encoding = c.encoding → c'.fragment = c.fragment →
        c'.bindings.Perm c.bindings →
        c'.validate = .ok () ∧ ∃ r', c'.registry classes = .ok r' ∧ r'.Agrees r := by
  have husable := validate_iff.mp h
  obtain ⟨charset, hcharset⟩ := husable.charset
  obtain ⟨r, hr⟩ := exists_registry husable classes
  have hanswers := answers_of_registry hr hcharset
  refine ⟨charset, r, hcharset, hr, hanswers, ?_⟩
  intro c' hencoding hfragment hbindings
  have husable' := husable.perm hencoding hbindings
  obtain ⟨r', hr'⟩ := exists_registry husable' classes
  have hcharset' : c'.charset = .ok charset := by
    rw [Config.charset, hencoding]
    exact hcharset
  exact ⟨validate_iff.mpr husable', r', hr',
    hanswers.agrees (answers_of_registry hr' hcharset') hfragment hbindings⟩

/-- Notes as text, or else as XML, and blobs, in ISO-8859-1. -/
def noting : Config where
  encoding := "latin1"
  fragment := false
  bindings := [{ name := "Note", codec := .xml, marked := false },
    { name := "Note", codec := .text, marked := true },
    { name := "Blob", codec := .binary, marked := false }]

/-- The same, with XML that has no declaration. -/
def notingFragments : Config :=
  { noting with fragment := true }

theorem registry_answers_noting :
    notingFragments.validate = .ok () ∧ ∃ r r', notingFragments.registry .empty = .ok r ∧
      { notingFragments with bindings := noting.bindings.reverse }.registry .empty = .ok r' ∧
      r'.Agrees r ∧ r.writers.find Bookshop.note = .ok (.text .latin1) ∧
      r.readers.find Bookshop.note (some (.xml .latin1))
        = .ok (.xml (((XmlCodec.new .empty).withCharset .latin1).withFragment true)) := by
  have hvalid : notingFragments.validate = .ok () := by decide +kernel
  obtain ⟨charset, r, hcharset, hr, hanswers, hperm⟩ := registry_answers hvalid .empty
  obtain rfl : Charset.latin1 = charset := Except.ok.inj hcharset
  obtain ⟨-, r', hr', hagrees⟩ :=
    hperm { notingFragments with bindings := noting.bindings.reverse }
      rfl rfl (List.reverse_perm _)
  have hmarked : notingFragments.IsDefault { name := "Note", codec := .text, marked := true } :=
    ⟨by decide, Or.inl rfl⟩
  have hxml : { name := "Note", codec := .xml, marked := false } ∈ notingFragments.bindings := by
    decide
  exact ⟨hvalid, r, r', hr, hr', hagrees, (hanswers.writer _ _).mpr ⟨_, hmarked, rfl, rfl⟩,
    (hanswers.reader _ _ _).mpr ⟨_, hxml, rfl, covers_iff.mpr (MediaType.serves_refl _), rfl⟩⟩

end Config

end EventWire

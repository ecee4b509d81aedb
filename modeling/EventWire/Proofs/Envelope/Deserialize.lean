import EventWire.Bookshop
import EventWire.Proofs.Envelope.Domain
import EventWire.Proofs.Payload.Unmarshal

/-!
# An event in memory and back

A configured registry reads what it wrote with the codec that wrote it. If that codec is
not for XML, it gives the payload back. If it is, the class of the type reads the
document; it may refuse it, but when it does not, the instance that it makes is no
payload, and the bytes are read by their media type instead (`payloadOf_serialize`). So
an event is read as it was, with its payloads as they are read back, if it is read at all
(`deserialize_serialize`).
-/

namespace EventWire

/-- The event as it is read back. -/
def DomainEvent.readBack (e : DomainEvent) : DomainEvent where
  id := e.id
  type := e.type
  data := e.data.readBack
  metadata := e.metadata.map fun m => { type := m.type, payload := m.payload.readBack }

/-- True when a payload is of the kind that the writer of a type writes. -/
def Registry.suits (r : Registry Codec) (t : DataType) (p : Payload) : Bool :=
  match r.writers.find t with
  | .ok codec => p.fits codec.mediaType
  | .error _ => true

/-- True when data and metadata are of the kinds that their writers write. -/
def DomainEvent.suits (e : DomainEvent) (r : Registry Codec) : Bool :=
  r.suits e.dataType e.data && e.metadata.all fun m => r.suits m.type m.payload

/-- No type that is bound for XML has a class of values that are payloads as they are:
JSON, texts or bytes. -/
def Config.NoPayloadClasses (c : Config) (classes : ClassTable) : Prop :=
  ∀ b ∈ c.bindings, b.codec = .xml → ∀ t k, t.text = b.name → classes.get? t = some k →
    k.type ∉ [ValueType.json, .text, .bytes, .base64]

theorem Table.mem_of_findEntry {α : Type} {t : DataType} {a : α} {entries : List (DataType × α)}
    (h : findEntry t entries = some a) : (t, a) ∈ entries := by
  induction entries with
  | nil => cases h
  | cons e rest ih =>
    obtain ⟨u, b⟩ := e
    rw [findEntry] at h
    split at h
    · next hu =>
      cases h
      rw [hu]
      exact List.mem_cons_self ..
    · exact List.mem_cons_of_mem _ (ih h)

theorem Registry.fits_of_suits {r : Registry Codec} {t : DataType} {p : Payload} {codec : Codec}
    (h : r.suits t p = true) (hfind : r.writers.find t = .ok codec) :
    p.fits codec.mediaType = true := by
  rw [suits, hfind] at h
  exact h

section Configured

variable {c : Config} {classes : ClassTable} {r : Registry Codec}

/-- **A payload that a configured registry wrote is read back, if it is read**, and it is
read unless it is XML. -/
theorem SerializedEvent.payloadOf_serialize {t : DataType} {p : Payload} {d : SerializedData}
    (hregistry : c.registry classes = .ok r) (hclasses : c.NoPayloadClasses classes)
    (hsuits : r.suits t p = true) (hlegible : p.jsonLegible = true ∧ p.xmlLegible = true)
    (h : r.serialize t p.toValue = .ok d) :
    (∀ q, payloadOf r d = .ok q → q = p.readBack) ∧
      (p.kind ≠ .xml → payloadOf r d = .ok p.readBack) := by
  obtain ⟨codec, hfind, -⟩ := bind_eq_ok.mp h
  obtain ⟨bs, hbs, rfl⟩ := Registry.serialize_eq_ok hfind h
  have hfits := Registry.fits_of_suits hsuits hfind
  obtain ⟨⟨b, hb, hname, charset, -, rfl⟩, hreader⟩ :=
    Config.exists_binding_of_find hregistry hfind
  -- The reader under the media type of the writer is the writer itself.
  rw [payloadOf, Registry.deserialize, hreader, ok_bind]
  by_cases hcodec : b.codec = .xml
  · have hbytes := Payload.fromBytes_marshal hfits hlegible.1 hlegible.2 hbs
    constructor
    · intro q hq
      obtain ⟨w, hw, hpayload⟩ := bind_eq_ok.mp hq
      have hnone := Payload.ofValue?_of_unmarshal_xml hcodec
        (fun k hk => hclasses b hb hcodec t k hname.symm hk) (mapError_eq_ok.mp hw)
      rw [hnone] at hpayload
      exact Except.ok.inj (hpayload.symm.trans hbytes)
    · intro hkind
      refine absurd ?_ hkind
      rw [Binding.toCodec, hcodec] at hfits
      obtain ⟨n, rfl⟩ := Payload.eq_xml_of_fits hfits
      rfl
  · obtain ⟨w, hw, hpayload⟩ :=
      Payload.exists_unmarshal_of_marshal hcodec hfits hlegible.1 hbs
    rw [hw, mapError_ok, ok_bind, hpayload]
    exact ⟨fun q hq => (Except.ok.inj hq).symm, fun _ => rfl⟩

/-- **An event that a configured registry wrote is read back field by field**, with its
payloads as they are read back, if it is read; and it is read if there is no XML in it. -/
theorem SerializedEvent.deserialize_serialize {e : DomainEvent} {s : SerializedEvent}
    (hregistry : c.registry classes = .ok r) (hclasses : c.NoPayloadClasses classes)
    (hsuits : e.suits r = true)
    (hpayloads : ∀ p ∈ e.payloads, p.jsonLegible = true ∧ p.xmlLegible = true)
    (hs : e.serialize r = .ok s) :
    (∀ e', s.deserialize r = .ok e' → e' = e.readBack) ∧
      ((∀ p ∈ e.payloads, p.kind ≠ .xml) → s.deserialize r = .ok e.readBack) := by
  rw [DomainEvent.suits, Bool.and_eq_true] at hsuits
  obtain ⟨d, hd, hrest⟩ := bind_eq_ok.mp hs
  obtain ⟨hdata, hdataRead⟩ := payloadOf_serialize hregistry hclasses hsuits.1
    (hpayloads _ e.data_mem_payloads) (mapError_eq_ok.mp hd)
  rw [DomainEvent.readBack]
  cases hmetadata : e.metadata with
  | none =>
    rw [hmetadata] at hrest
    cases hrest
    constructor
    · intro e' he'
      obtain ⟨q, hq, hdone⟩ := bind_eq_ok.mp he'
      cases hdone
      rw [hdata q hq]
      rfl
    · intro hkinds
      rw [deserialize, hdataRead (hkinds _ e.data_mem_payloads), ok_bind]
      rfl
  | some m =>
    rw [hmetadata] at hrest hsuits
    obtain ⟨ud, hud, hdone⟩ := bind_eq_ok.mp hrest
    cases hdone
    have hmem := DomainEvent.metadata_mem_payloads hmetadata
    have hudOk := mapError_eq_ok.mp hud
    obtain ⟨huser, huserRead⟩ :=
      payloadOf_serialize hregistry hclasses hsuits.2 (hpayloads _ hmem) hudOk
    -- The type of the metadata is the one that it was written under.
    obtain ⟨codec, hfind, -⟩ := bind_eq_ok.mp hudOk
    obtain ⟨bs, -, rfl⟩ := Registry.serialize_eq_ok hfind hudOk
    constructor
    · intro e' he'
      obtain ⟨q, hq, hlater⟩ := bind_eq_ok.mp he'
      obtain ⟨uq, huq, hdone⟩ := bind_eq_ok.mp hlater
      cases hdone
      rw [hdata q hq, huser uq huq]
      rfl
    · intro hkinds
      rw [deserialize, hdataRead (hkinds _ e.data_mem_payloads), ok_bind]
      dsimp only
      rw [huserRead (hkinds _ hmem), ok_bind]
      rfl

end Configured

/-- Books as XML of their class, notes as text, blobs as bytes, and records of who did
something as JSON, in ISO-8859-1. -/
def Config.shelving : Config where
  encoding := "latin1"
  fragment := true
  bindings := [{ name := "BookAddedEvent", codec := .xml, marked := false },
    { name := "Note", codec := .xml, marked := false },
    { name := "Note", codec := .text, marked := true },
    { name := "Blob", codec := .binary, marked := false },
    { name := "Audit", codec := .json, marked := false }]

/-- A book that was added, with who added it. -/
def DomainEvent.shelved : DomainEvent where
  id := .greatest
  type := Bookshop.bookAddedEvent.retag .eventType
  data := .xml {
    name := "book-added-event"
    attributes := [("name", "<é>"), ("author", "")]
    children := [.text " ", .text "a", .text "b", .cdata "]]>", .cdata "c", .text "\n"] }
  metadata := some { type := Bookshop.audit, payload := .json (.object [("by", .string "ü")]) }

/-- A note with a blob. -/
def DomainEvent.noted : DomainEvent where
  id := .greatest
  type := Bookshop.note.retag .eventType
  data := .text "<é/>"
  metadata := some { type := Bookshop.blob, payload := .binary (.ofText "/w==") }

/-- The book is read by its class, which finds its texts of no use, and is read back in
its normal form; what is not XML is read back in any case. -/
theorem SerializedEvent.deserialize_serialize_shelved :
    ∃ r s s', Config.shelving.registry (Bookshop.classes "") = .ok r ∧
      DomainEvent.shelved.serialize r = .ok s ∧ s.deserialize r = .ok DomainEvent.shelved.readBack ∧
      DomainEvent.noted.serialize r = .ok s' ∧
      s'.deserialize r = .ok DomainEvent.noted.readBack := by
  have hclasses : Config.shelving.NoPayloadClasses (Bookshop.classes "") := by
    intro b _ _ t k _ hk
    have hrecords : ∀ e ∈ (Bookshop.classes "").entries,
        e.2.type ∉ [ValueType.json, .text, .bytes, .base64] := by decide +kernel
    exact hrecords _ (Table.mem_of_findEntry hk)
  have hwritten : (match Config.shelving.registry (Bookshop.classes "") with
      | .ok r => DomainEvent.shelved.suits r && DomainEvent.noted.suits r &&
          (DomainEvent.shelved.serialize r >>= (deserialize r ·)).isOk &&
          (DomainEvent.noted.serialize r).isOk
      | .error _ => false) = true := by decide +kernel
  cases hr : Config.shelving.registry (Bookshop.classes "") with
  | error e => rw [hr] at hwritten; cases hwritten
  | ok r =>
    rw [hr] at hwritten
    dsimp only at hwritten
    rw [Bool.and_eq_true, Bool.and_eq_true, Bool.and_eq_true] at hwritten
    obtain ⟨⟨⟨hshelved, hnoted⟩, hread⟩, hnotedWritten⟩ := hwritten
    obtain ⟨e, he⟩ := exists_ok_of_isOk hread
    obtain ⟨s, hs, hback⟩ := bind_eq_ok.mp he
    obtain ⟨s', hs'⟩ := exists_ok_of_isOk hnotedWritten
    refine ⟨r, s, s', rfl, hs, ?_, hs', ?_⟩
    · obtain rfl := (deserialize_serialize hr hclasses hshelved (by decide +kernel) hs).1 e hback
      exact hback
    · exact (deserialize_serialize hr hclasses hnoted (by decide +kernel) hs').2
        (by decide +kernel)

end EventWire

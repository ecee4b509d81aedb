import EventWire.Proofs.Config.Registry
import EventWire.Proofs.Envelope.Bytes
import EventWire.Proofs.Payload.Marshal

/-!
# Two ways to an envelope

An event in memory becomes an envelope directly, with the content types of its
writers, or by way of bytes: its writers run, and the bytes are read by content type.
With a configured registry both ways lead to the same envelope, up to what reading
does to a payload (`ofSerialized_serialize`).
-/

namespace EventWire

/-- The payloads of an event in memory. -/
def DomainEvent.payloads (e : DomainEvent) : List Payload :=
  e.data :: (e.metadata.map (·.payload)).toList

/-- What a registry writes carries the media type of the writer. -/
theorem Registry.serialize_eq_ok {r : Registry Codec} {t : DataType} {v : Value}
    {d : SerializedData} {codec : Codec} (hfind : r.writers.find t = .ok codec)
    (h : r.serialize t v = .ok d) :
    ∃ bs, codec.marshal v t = .ok bs ∧
      d = { type := t, mediaType := codec.mediaType, bytes := bs } := by
  rw [serialize, hfind, ok_bind] at h
  obtain ⟨bs, hbs, hdone⟩ := bind_eq_ok.mp h
  exact ⟨bs, hbs, (Except.ok.inj hdone).symm⟩

/-- The bytes of a payload are read back by the media type of its writer. -/
theorem Registry.fromBytes_marshal {r : Registry Codec} {classes : ClassTable}
    (hr : r.WritesBindings classes) {t u : DataType} {codec : Codec}
    (hfind : r.writers.find t = .ok codec) {p : Payload} {bs : Bytes}
    (hfits : p.fits codec.mediaType = true) (hjson : p.jsonLegible = true)
    (hxml : p.xmlLegible = true) (h : codec.marshal p.toValue u = .ok bs) :
    Payload.fromBytes bs codec.mediaType = .ok p.readBack := by
  obtain ⟨b, charset, fragment, rfl⟩ := hr t codec (Writers.find_eq_ok.mp hfind)
  exact Payload.fromBytes_marshal hfits hjson hxml h

theorem DomainEvent.data_mem_payloads (e : DomainEvent) : e.data ∈ e.payloads :=
  List.mem_cons_self ..

theorem DomainEvent.metadata_mem_payloads {e : DomainEvent} {m : TypedPayload}
    (h : e.metadata = some m) : m.payload ∈ e.payloads := by
  rw [payloads, h]
  exact List.mem_cons_of_mem _ (List.mem_singleton.mpr rfl)

/-- **What a configured registry writes for an event carries the envelope** that is made
of the event without writing. -/
theorem Event.carries_serialize {classes : ClassTable} {r : Registry Codec} {e : DomainEvent}
    {a : Event} {s : SerializedEvent} (hr : r.WritesBindings classes)
    (hpayloads : ∀ p ∈ e.payloads, p.jsonLegible = true ∧ p.xmlLegible = true)
    (ha : Event.ofDomain r e = .ok a) (hs : e.serialize r = .ok s) : s.Carries a := by
  obtain ⟨codec, hcodec, hrest⟩ := bind_eq_ok.mp ha
  obtain ⟨d, hd, hsrest⟩ := bind_eq_ok.mp hs
  have hfind := mapError_eq_ok.mp hcodec
  obtain ⟨bs, hbs, rfl⟩ := Registry.serialize_eq_ok hfind (mapError_eq_ok.mp hd)
  obtain ⟨hjson, hxml⟩ := hpayloads _ e.data_mem_payloads
  dsimp only at hrest
  cases hmetadata : e.metadata with
  | none =>
    rw [hmetadata] at hrest hsrest
    cases hsrest
    obtain ⟨hfits, rfl⟩ := Event.ofParts_eq_ok hrest
    have hdata := Registry.fromBytes_marshal hr hfind hfits hjson hxml hbs
    exact ⟨rfl, rfl, ⟨rfl, rfl, hdata⟩, trivial⟩
  | some m =>
    rw [hmetadata] at hrest hsrest
    obtain ⟨userCodec, huserCodec, hmade⟩ := bind_eq_ok.mp hrest
    obtain ⟨u, hu, hparts⟩ := bind_eq_ok.mp hmade
    obtain ⟨ud, hud, hsdone⟩ := bind_eq_ok.mp hsrest
    cases hsdone
    -- Both ways look the writer up by type, so it is one codec that gave the content type
    -- and that wrote the bytes.
    have huserFind := mapError_eq_ok.mp huserCodec
    obtain ⟨ubs, hubs, rfl⟩ := Registry.serialize_eq_ok huserFind (mapError_eq_ok.mp hud)
    obtain ⟨hufits, huadmitted, rfl⟩ := UserMeta.ofParts_eq_ok hu
    obtain ⟨hfits, rfl⟩ := Event.ofParts_eq_ok hparts
    obtain ⟨hujson, huxml⟩ := hpayloads _ (DomainEvent.metadata_mem_payloads hmetadata)
    have hdata := Registry.fromBytes_marshal hr hfind hfits hjson hxml hbs
    have huser := Registry.fromBytes_marshal hr huserFind hufits hujson huxml hubs
    exact ⟨rfl, rfl, ⟨rfl, rfl, hdata⟩, ⟨rfl, rfl, huser⟩⟩

/-- **Reading what a configured registry wrote gives the envelope that is made without
writing**, with its payloads as they are read back. -/
theorem Event.ofSerialized_serialize {c : Config} {classes : ClassTable} {r : Registry Codec}
    {e : DomainEvent} {a : Event} {s : SerializedEvent} (hregistry : c.registry classes = .ok r)
    (hpayloads : ∀ p ∈ e.payloads, p.jsonLegible = true ∧ p.xmlLegible = true)
    (ha : Event.ofDomain r e = .ok a) (hs : e.serialize r = .ok s) :
    Event.ofSerialized s = .ok a.readBack :=
  ofSerialized_of_carries
    (carries_serialize (Config.writesBindings_registry hregistry) hpayloads ha hs)

/-- Orders as JSON of a class, remarks as XML documents, both in ISO-8859-1. -/
def Config.ordering : Config where
  encoding := "latin1"
  fragment := false
  bindings := [{ name := "Order", codec := .typedJson, marked := false },
    { name := "Remark", codec := .xml, marked := true },
    { name := "Remark", codec := .text, marked := false }]

/-- The class of orders: any JSON. -/
def ClassTable.ordering : ClassTable :=
  Table.empty.insert .order (.ofShape "Value" .json)

/-- An order with a remark. -/
def DomainEvent.ordered : DomainEvent where
  id := .greatest
  type := DataType.order.retag .eventType
  data := .json (.array [.string "]]>\\é", .null,
    .number (.float { negative := true, pattern := 0x3fb999999999999a })])
  metadata := some {
    type := ⟨"Remark", by decide +kernel⟩
    payload := .xml {
      name := "remark"
      attributes := [("lang", "'\"<>&")]
      children := [.cdata "a", .text " ", .cdata "b", .text "c", .text "d"] } }

/-- An order is written by its class and its remark with a declaration, and both are
read as they went into the envelope. -/
theorem Event.ofSerialized_serialize_ordered :
    ∃ r a s, Config.ordering.registry .ordering = .ok r ∧ Event.ofDomain r .ordered = .ok a ∧
      DomainEvent.ordered.serialize r = .ok s ∧ Event.ofSerialized s = .ok a.readBack := by
  have hwritten : (match Config.ordering.registry .ordering with
      | .ok r => (Event.ofDomain r .ordered).isOk && (DomainEvent.ordered.serialize r).isOk
      | .error _ => false) = true := by decide +kernel
  cases hr : Config.ordering.registry .ordering with
  | error e => rw [hr] at hwritten; cases hwritten
  | ok r =>
    rw [hr, Bool.and_eq_true] at hwritten
    obtain ⟨a, ha⟩ := exists_ok_of_isOk hwritten.1
    obtain ⟨s, hs⟩ := exists_ok_of_isOk hwritten.2
    exact ⟨r, a, s, rfl, ha, hs, ofSerialized_serialize hr (by decide +kernel) ha hs⟩

end EventWire

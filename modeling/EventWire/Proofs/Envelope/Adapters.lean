import EventWire.Proofs.Codec.Xml
import EventWire.Proofs.Envelope.Kinds

/-!
# Adapters and restored events

An XML codec sends a tree through its adapters before it writes it, and through them again,
in the other direction, before the class of the type reads it. When an event is restored
that instance is of no use as a payload, and the bytes are read by their media type, which
knows of no adapters. So what is restored is the tree that went over the wire
(`SerializedEvent.deserialize_serialize_adapted`), even if every adapter undoes what it does.
-/

namespace EventWire

theorem PayloadKind.ofMediaType_of_isXml {m : MediaType} (h : m.isXml = true) :
    ofMediaType m = .xml := by
  have hsub : m.sub = MediaType.xmlToken := of_decide_eq_true (Bool.and_eq_true _ _ ▸ h).2
  have hjson : m.isJson = false := by
    rw [MediaType.isJson, hsub, Bool.and_eq_false_iff]
    exact Or.inr (by decide)
  rw [ofMediaType, hjson, if_neg Bool.false_ne_true, if_pos h]

/-- The data of a written event is what was written for its data. -/
theorem DomainEvent.serialize_data {r : Registry Codec} {e : DomainEvent} {s : SerializedEvent}
    (h : e.serialize r = .ok s) : r.serialize e.dataType e.data.toValue = .ok s.data := by
  obtain ⟨d, hd, hrest⟩ := bind_eq_ok.mp h
  have hdata : s.data = d := by
    cases hmetadata : e.metadata with
    | none =>
      rw [hmetadata] at hrest
      cases hrest
      rfl
    | some m =>
      rw [hmetadata] at hrest
      obtain ⟨_, -, hdone⟩ := bind_eq_ok.mp hrest
      cases hdone
      rfl
  rw [hdata]
  exact mapError_eq_ok.mp hd

/-- The data of a restored event is the payload of the data on the wire. -/
theorem SerializedEvent.payloadOf_data {r : Registry Codec} {s : SerializedEvent}
    {e : DomainEvent} (h : s.deserialize r = .ok e) : payloadOf r s.data = .ok e.data := by
  obtain ⟨p, hp, hrest⟩ := bind_eq_ok.mp h
  have hdata : e.data = p := by
    cases hmetadata : s.metadata with
    | none =>
      rw [hmetadata] at hrest
      cases hrest
      rfl
    | some d =>
      rw [hmetadata] at hrest
      obtain ⟨_, -, hdone⟩ := bind_eq_ok.mp hrest
      cases hdone
      rfl
  rw [hdata]
  exact hp

section Adapted

variable {x : XmlCodec} {n wire : Xml.Node} {t : DataType} {bs : Bytes}

/-- **Bytes that an XML codec wrote are read by their media type as the tree that went over
the wire**, if the media type names the charset, or the bytes show no sign of Latin-1. -/
theorem Payload.fromBytes_of_marshal_xml
    (hwire : Xml.Adapter.applyOutward x.adapters n = .ok wire)
    (hattributes : wire.every Xml.validAttributes = true)
    (hdistinct : wire.every Xml.distinctAttributes = true)
    (halike : x.mediaType.encoding ≠ none ∨ x.charset ≠ .latin1 ∨ ∀ b ∈ bs, b.toNat < 0x80)
    (h : x.marshal (.tree n) t = .ok bs) :
    fromBytes bs x.mediaType = .ok (.xml wire.norm) := by
  have hkind := PayloadKind.ofMediaType_of_isXml x.isXml
  obtain ⟨-, s, hencode, hparse⟩ :=
    XmlCodec.exists_document_of_marshal (XmlCodec.outwardTree_eq_ok rfl hwire) hattributes
      hdistinct h
  have hdecoded : decodeIn x.charset bs = .ok s := by
    rw [decodeIn, Charset.decode_of_encode (mapError_eq_ok.mp hencode), mapError_ok]
  rw [fromBytes_of_decodeIn (hkind ▸ by decide) x.agrees hdecoded halike, hkind, ofText,
    Xml.Node.parse, hparse]
  rfl

/-- Bytes of a type whose class is no payload are read by their media type, if the codec
reads them at all. -/
theorem SerializedEvent.payloadOf_xml {r : Registry Codec} {d : SerializedData} {p : Payload}
    (hreader : r.readers.find d.type (some d.mediaType) = .ok (.xml x))
    (hclass : ∀ k, x.classes.get? d.type = some k → k.type.payloadKind? = none)
    (h : payloadOf r d = .ok p) : Payload.fromBytes d.bytes d.mediaType = .ok p := by
  obtain ⟨w, hw, hpayload⟩ := bind_eq_ok.mp h
  have hunmarshal := mapError_eq_ok.mp hw
  rw [Registry.deserialize, hreader, ok_bind] at hunmarshal
  obtain ⟨k, s, hk, hread⟩ := Payload.exists_ofXml_of_readBytes hunmarshal
  have htype : w.type = k.type := of_decide_eq_true (k.isInstance_of_ofXml hread)
  have hnone : Payload.ofValue? w = none := by
    rw [← Option.map_eq_none_iff (f := Payload.kind), Payload.map_kind_ofValue?, htype, hclass k hk]
  rw [hnone] at hpayload
  exact hpayload

/-- **An event of XML is restored with the tree that went over the wire**, not with its own
unless the adapters leave that as it is. -/
theorem SerializedEvent.deserialize_serialize_adapted {r : Registry Codec} {e e' : DomainEvent}
    {s : SerializedEvent} (hwriter : r.writers.find e.dataType = .ok (.xml x))
    (hreader : r.readers.find e.dataType (some x.mediaType) = .ok (.xml x))
    (hclass : ∀ k, x.classes.get? e.dataType = some k → k.type.payloadKind? = none)
    (hdata : e.data = .xml n) (hwire : Xml.Adapter.applyOutward x.adapters n = .ok wire)
    (hattributes : wire.every Xml.validAttributes = true)
    (hdistinct : wire.every Xml.distinctAttributes = true) (hsettled : wire.settled = true)
    (hs : e.serialize r = .ok s)
    (halike : x.mediaType.encoding ≠ none ∨ x.charset ≠ .latin1 ∨
      ∀ b ∈ s.data.bytes, b.toNat < 0x80)
    (he' : s.deserialize r = .ok e') :
    e'.data = .xml wire ∧ (e'.data = e.data ↔ wire = n) := by
  have hwritten := e.serialize_data hs
  rw [hdata] at hwritten
  obtain ⟨bs, hbs, hsdata⟩ := Registry.serialize_eq_ok hwriter hwritten
  have hrestored := payloadOf_data he'
  rw [hsdata] at halike hrestored
  have hread := payloadOf_xml hreader hclass hrestored
  have hwireBack := Payload.fromBytes_of_marshal_xml hwire hattributes hdistinct halike hbs
  rw [Xml.norm_of_settled hsettled] at hwireBack
  have hdataBack : e'.data = .xml wire := Except.ok.inj (hread.symm.trans hwireBack)
  refine ⟨hdataBack, ?_⟩
  rw [hdataBack, hdata]
  exact ⟨Payload.xml.inj, congrArg _⟩

end Adapted

namespace XmlCodec

/-- The adapters of parcels undo what they do. -/
theorem inward_parcels :
    ∀ a ∈ parcels.adapters, ∀ n m, a.outward n = .ok m → a.inward m = .ok n := by
  intro a ha n m hout
  rcases List.mem_cons.mp ha with rfl | hlast
  · exact Xml.Adapter.inward_wrap hout
  · obtain rfl := List.mem_singleton.mp hlast
    exact Xml.Adapter.inward_wrap hout

/-- A book in a parcel in a sack. -/
def sackTree : Xml.Node :=
  (Xml.Node.named "sack").withChild ((Xml.Node.named "parcel").withChild bookTree)

/-- The registry for books in parcels. -/
def parcelsRegistry : Registry Codec :=
  Registry.empty.addDefault Bookshop.bookAddedEvent (.xml parcels)

end XmlCodec

/-- A book that was added, as a tree. -/
def DomainEvent.booked : DomainEvent where
  id := .greatest
  type := Bookshop.bookAddedEvent.retag .eventType
  data := .xml XmlCodec.bookTree
  metadata := none

/-- The name of the root of a payload of XML. -/
def Payload.rootName? (p : Payload) : Option String :=
  match p with
  | .xml n => some n.name
  | _ => none

namespace SerializedEvent

/-- The book is written and restored, in something called a sack. -/
theorem exists_booked_restored :
    ∃ s e', DomainEvent.booked.serialize XmlCodec.parcelsRegistry = .ok s ∧
      s.deserialize XmlCodec.parcelsRegistry = .ok e' ∧ e'.data.rootName? = some "sack" := by
  have hroot : (DomainEvent.booked.serialize XmlCodec.parcelsRegistry >>=
      (deserialize XmlCodec.parcelsRegistry ·)).toOption.bind (·.data.rootName?) = some "sack" := by
    decide +kernel
  obtain ⟨e', hboth, hname⟩ := Option.bind_eq_some_iff.mp hroot
  obtain ⟨s, hs, he'⟩ := bind_eq_ok.mp (toOption_eq_some.mp hboth)
  exact ⟨s, e', hs, he', hname⟩

/-- The book is read out of its parcel for its class, but is restored inside. -/
theorem deserialize_serialize_adapted_booked :
    ∃ s e', DomainEvent.booked.serialize XmlCodec.parcelsRegistry = .ok s ∧
      s.deserialize XmlCodec.parcelsRegistry = .ok e' ∧ e'.data = .xml XmlCodec.sackTree := by
  obtain ⟨s, e', hs, he', -⟩ := exists_booked_restored
  have hclass : ∀ k, XmlCodec.parcels.classes.get? Bookshop.bookAddedEvent = some k →
      k.type.payloadKind? = none := by
    rintro k ⟨⟩
    rfl
  have hwire : Xml.Adapter.applyOutward XmlCodec.parcels.adapters XmlCodec.bookTree
      = .ok XmlCodec.sackTree := rfl
  obtain ⟨hdata, -⟩ := deserialize_serialize_adapted rfl rfl hclass rfl hwire (by decide +kernel)
    (by decide +kernel) (by decide +kernel) hs (Or.inl (by decide +kernel)) he'
  exact ⟨s, e', hs, he', hdata⟩

/-- What is restored is another tree than that of the event, though every adapter undoes
what it does and there is nothing in the trees that reading would change. -/
theorem deserialize_serialize_booked :
    (∀ a ∈ XmlCodec.parcels.adapters, ∀ n m, a.outward n = .ok m → a.inward m = .ok n) ∧
      (XmlCodec.bookTree.every Xml.validAttributes && XmlCodec.bookTree.settled &&
        XmlCodec.sackTree.every Xml.validAttributes && XmlCodec.sackTree.settled) = true ∧
      Xml.Adapter.applyOutward XmlCodec.parcels.adapters XmlCodec.bookTree
        = .ok XmlCodec.sackTree ∧
      ∃ s e', DomainEvent.booked.serialize XmlCodec.parcelsRegistry = .ok s ∧
        s.deserialize XmlCodec.parcelsRegistry = .ok e' ∧ e'.data ≠ DomainEvent.booked.data := by
  obtain ⟨s, e', hs, he', hname⟩ := exists_booked_restored
  refine ⟨XmlCodec.inward_parcels, by decide +kernel, rfl, s, e', hs, he', fun hsame => ?_⟩
  rw [hsame] at hname
  exact absurd hname (by decide +kernel)

end SerializedEvent

end EventWire

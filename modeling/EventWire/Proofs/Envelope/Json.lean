import EventWire.Proofs.Envelope.ReadBack

/-!
# Envelopes in JSON

The payload of the metadata stands under a key that is never one of those with the
types (`jsonKey_notMem_reservedKeys`), so putting it there leaves what they say alone
(`SystemMeta.ofJson_of_lookup`), and its kind is known from the content type before
it is looked for. `json_roundTrip` is the result for envelopes and for lists of them.
-/

namespace EventWire

/-! ## Members that are read as they were written -/

theorem stringOf_string (field s : String) : stringOf field (.string s) = .ok s := rfl

theorem requiredString_of_lookup {members : List (String × Json)} {key s : String}
    (h : Json.lookup key members = some (.string s)) :
    SystemMeta.requiredString members key = .ok s := by
  rw [SystemMeta.requiredString, h]
  rfl

/-- The types are read from any object that has them as its members. -/
theorem SystemMeta.ofJson_of_lookup {s : SystemMeta} {members : List (String × Json)}
    (h : ∀ key ∈ reservedKeys, Json.lookup key members = Json.lookup key s.members) :
    SystemMeta.ofJson (.object members) = .ok s := by
  have hdata : Json.lookup dataTypeKey members = some (.string s.dataType.text) := by
    rw [h _ (by decide), SystemMeta.members]
    cases s.user <;> rfl
  have hcontent : Json.lookup dataContentTypeKey members = some (.string s.contentType.print) := by
    rw [h _ (by decide), SystemMeta.members]
    cases s.user <;> rfl
  rw [SystemMeta.ofJson, requiredString_of_lookup hdata, ok_bind, readType_text, ok_bind,
    requiredString_of_lookup hcontent, ok_bind, readContentType_print, ok_bind]
  have hkey := h metaTypeKey (by decide)
  have hmeta := h metaContentTypeKey (by decide)
  obtain ⟨dataType, contentType, user⟩ := s
  cases user with
  | none =>
    have hnone : Json.lookup metaTypeKey members = none := hkey
    rw [readUser, hnone]
    rfl
  | some p =>
    obtain ⟨t, m⟩ := p
    have htype : Json.lookup metaTypeKey members = some (.string t.text) := hkey
    have hprint : Json.lookup metaContentTypeKey members = some (.string m.print) := hmeta
    rw [readUser, htype]
    dsimp only
    rw [stringOf_string, ok_bind, readType_text, ok_bind, requiredString_of_lookup hprint, ok_bind,
      readContentType_print]
    rfl

/-! ## Metadata -/

/-- **The payload of the metadata never takes the place of a type.** -/
theorem UserMeta.jsonKey_notMem_reservedKeys (u : UserMeta) : u.jsonKey ∉ reservedKeys := by
  have h := u.admitted
  rw [admitsMetaType, Bool.and_eq_true, Bool.not_eq_true'] at h
  unfold jsonKey
  split
  · decide
  · exact fun hmem => Bool.false_ne_true (h.1.symm.trans (List.contains_iff_mem.mpr hmem))

/-- A payload that is no bytes is written as any payload is, under the type of the metadata,
and read from there. -/
theorem UserMeta.readPayload_eq_of_get? {u : UserMeta} {payload v : Json}
    (hplain : u.payload.kind ≠ .binary) (hpayload : u.toJson = .ok payload)
    (hget : v.get? u.jsonKey = some payload) :
    u.payload.toJson = .ok payload ∧
      Meta.readPayload v u.type u.contentType
        = Payload.ofJson payload u.contentType metaTypeKey := by
  have hkind := Payload.kind_of_fits u.fits
  constructor
  · rw [← hpayload, UserMeta.toJson]
    split
    · next b hp => exact absurd (by rw [hp]; rfl) hplain
    · rfl
  · rw [jsonKey, if_neg hplain] at hget
    rw [Meta.readPayload, if_neg fun e => hplain (hkind.symm.trans e), hget]

/-- The payload of the metadata is found and read under its key. -/
theorem UserMeta.readPayload_of_get? {u : UserMeta} {payload v : Json}
    (hxml : u.payload.XmlReads) (hdecodes : u.payload.decodes = true)
    (hpayload : u.toJson = .ok payload) (hget : v.get? u.jsonKey = some payload) :
    Meta.readPayload v u.type u.contentType = .ok u.payload.readBack := by
  -- Both sides choose the key by kind, the reader by that of the content type.
  by_cases hbinary : u.payload.kind = .binary
  · rw [jsonKey, if_pos hbinary] at hget
    rw [Meta.readPayload, if_pos ((Payload.kind_of_fits u.fits).trans hbinary), hget]
    cases hp : u.payload with
    | binary b =>
      rw [UserMeta.toJson, hp] at hpayload
      rw [hp] at hdecodes
      cases hpayload
      show readBase64 b.text = _
      rw [Payload.readBase64_text hdecodes]
      rfl
    | json j => rw [hp] at hbinary; cases hbinary
    | xml n => rw [hp] at hbinary; cases hbinary
    | text s => rw [hp] at hbinary; cases hbinary
  · obtain ⟨hplain, hread⟩ := u.readPayload_eq_of_get? hbinary hpayload hget
    rw [hread]
    exact Payload.ofJson_toJson u.fits hxml hdecodes hplain metaTypeKey

theorem Meta.system_user (m : Meta) :
    m.system.user = m.user.map fun u => (u.type, u.contentType) := rfl

/-- The types are read back from the part with the metadata: it is left to read the payload,
which is there under its key, if there is metadata. -/
theorem Meta.ofJson_toJson_eq {m : Meta} {v : Json} (h : m.toJson = .ok v) :
    (m.user = none → Meta.ofJson v = .ok m) ∧
    ∀ u, m.user = some u → ∃ payload, u.toJson = .ok payload ∧ v.get? u.jsonKey = some payload ∧
      Meta.ofJson v = (do
        let p ← readPayload v u.type u.contentType
        let u ← UserMeta.ofParts u.type u.contentType p
        return { m with user := some u }) := by
  refine ⟨fun huser => ?_, fun u huser => ?_⟩
  · have hnone : m.system.user = none := by rw [system_user, huser, Option.map_none]
    rw [Meta.toJson, huser] at h
    cases h
    have hsystem : SystemMeta.ofJson m.system.toJson = .ok m.system :=
      SystemMeta.ofJson_of_lookup fun _ _ => rfl
    rw [Meta.ofJson, hsystem, ok_bind, hnone, ← huser]
    rfl
  · have hsome : m.system.user = some (u.type, u.contentType) := by
      rw [system_user, huser, Option.map_some]
    rw [Meta.toJson, huser] at h
    obtain ⟨payload, hpayload, hv⟩ := bind_eq_ok.mp h
    cases hv
    -- The key of the payload is none of those that are looked up for the types.
    have hsystem : SystemMeta.ofJson (.object (Json.insert u.jsonKey payload m.system.members))
        = .ok m.system :=
      SystemMeta.ofJson_of_lookup fun key hkey =>
        Json.lookup_insert_of_ne (fun e => u.jsonKey_notMem_reservedKeys (by rwa [← e])) _ _
    refine ⟨payload, hpayload, Json.lookup_insert_self _ _ _, ?_⟩
    rw [Meta.ofJson, hsystem, ok_bind, hsome]
    rfl

/-- The part with the metadata is read back. -/
theorem Meta.ofJson_toJson {m : Meta} {v : Json}
    (hxml : ∀ u, m.user = some u → u.payload.XmlReads)
    (hdecodes : ∀ u, m.user = some u → u.payload.decodes = true) (h : m.toJson = .ok v) :
    Meta.ofJson v = .ok m.readBack := by
  obtain ⟨hnone, hsome⟩ := ofJson_toJson_eq h
  cases huser : m.user with
  | none => rw [hnone huser, readBack_of_none huser, ← huser]
  | some u =>
    obtain ⟨payload, hpayload, hget, hread⟩ := hsome u huser
    rw [hread, u.readPayload_of_get? (hxml u huser) (hdecodes u huser) hpayload hget, ok_bind,
      UserMeta.ofParts_readBack, readBack_of_some huser]
    rfl

/-! ## Envelopes -/

/-- What names an event is read back from the JSON of an envelope: it is left to read the
metadata, and the data by its content type, and to put the parts together. -/
theorem Event.ofJson_toJson_parts {e : Event} {v : Json} (h : e.toJson = .ok v) :
    ∃ data metadata, e.data.toJson = .ok data ∧ e.metadata.toJson = .ok metadata ∧
      Event.ofJson v = (do
        let m ← Meta.ofJson metadata
        let data ← Payload.ofJson data m.contentType dataField
        ofParts e.id e.type data m) := by
  obtain ⟨data, hdata, hrest⟩ := bind_eq_ok.mp h
  obtain ⟨metadata, hmetadata, hv⟩ := bind_eq_ok.mp hrest
  cases hv
  refine ⟨data, metadata, hdata, hmetadata, ?_⟩
  show (do
    let id ← readId e.id.text
    let type ← readEventType e.type.text
    let m ← Meta.ofJson metadata
    let data ← Payload.ofJson data m.contentType dataField
    ofParts id type data m) = _
  rw [readId_text, ok_bind, readEventType_text, ok_bind]

/-- All but the data is read back from the JSON of an envelope: it is left to read the data by
its content type, and to put the parts together. -/
theorem Event.ofJson_toJson_eq {e : Event} {v : Json}
    (hxml : ∀ u, e.metadata.user = some u → u.payload.XmlReads)
    (hdecodes : ∀ u, e.metadata.user = some u → u.payload.decodes = true) (h : e.toJson = .ok v) :
    ∃ data, e.data.toJson = .ok data ∧ Event.ofJson v = (do
      let data ← Payload.ofJson data e.contentType dataField
      ofParts e.id e.type data e.metadata.readBack) := by
  obtain ⟨data, metadata, hdata, hmetadata, hread⟩ := ofJson_toJson_parts h
  refine ⟨data, hdata, ?_⟩
  rw [hread, Meta.ofJson_toJson hxml hdecodes hmetadata, ok_bind]
  rfl

/-- **An envelope is read back from JSON** if its XML is from its text, and its base64
decodes. -/
theorem Event.ofJson_toJson_of_xmlReads {e : Event} {v : Json} (hxml : ∀ p ∈ e.payloads, p.XmlReads)
    (hdecodes : ∀ p ∈ e.payloads, p.decodes = true) (h : e.toJson = .ok v) :
    Event.ofJson v = .ok e.readBack := by
  obtain ⟨data, hdata, hread⟩ := ofJson_toJson_eq (fun u hu => hxml _ (user_mem_payloads hu))
    (fun u hu => hdecodes _ (user_mem_payloads hu)) h
  have hpayload := Payload.ofJson_toJson e.fits (hxml _ e.data_mem_payloads)
    (hdecodes _ e.data_mem_payloads) hdata dataField
  rw [hread, contentType, hpayload, ok_bind, ofParts_readBack]

theorem Event.ofJson_toJson {e : Event} {v : Json} (hxml : ∀ p ∈ e.payloads, p.xmlLegible = true)
    (hdecodes : ∀ p ∈ e.payloads, p.decodes = true) (h : e.toJson = .ok v) :
    Event.ofJson v = .ok e.readBack :=
  ofJson_toJson_of_xmlReads (fun p hp => Payload.xmlReads_of_xmlLegible (hxml p hp)) hdecodes h

/-- **Envelopes are read back from JSON**, one by one and as a list in its order, and
the payload of the metadata has a key of its own. -/
theorem Events.json_roundTrip :
    (∀ (e : Event) (v : Json), (∀ p ∈ e.payloads, p.xmlLegible = true ∧ p.decodes = true) →
      e.toJson = .ok v → Event.ofJson v = .ok e.readBack) ∧
    (∀ (es : Events) (v : Json),
      (∀ e ∈ es, ∀ p ∈ e.payloads, p.xmlLegible = true ∧ p.decodes = true) →
      Events.toJson es = .ok v → Events.ofJson v = .ok (es.map Event.readBack)) ∧
    ∀ u : UserMeta, u.jsonKey ∉ reservedKeys := by
  have hone : ∀ (e : Event) (v : Json), (∀ p ∈ e.payloads, p.xmlLegible = true ∧ p.decodes = true) →
      e.toJson = .ok v → Event.ofJson v = .ok e.readBack := fun e v hpayloads h =>
    Event.ofJson_toJson (fun p hp => (hpayloads p hp).1) (fun p hp => (hpayloads p hp).2) h
  refine ⟨hone, ?_, UserMeta.jsonKey_notMem_reservedKeys⟩
  intro es v hpayloads h
  obtain ⟨vs, hvs, rfl⟩ := map_eq_ok.mp h
  exact mapM_of_mapM hvs fun e he v hv => hone e v (hpayloads e he) hv

/-- An order and a scan come back from JSON, alone and together. -/
theorem Events.json_roundTrip_order_scan :
    (∃ v, Event.order.toJson = .ok v ∧ Event.ofJson v = .ok Event.order.readBack) ∧
    (∃ v, Events.toJson [.order, .scan] = .ok v ∧
      Events.ofJson v = .ok [Event.order.readBack, Event.scan.readBack]) ∧
    base64Tag ∉ reservedKeys := by
  obtain ⟨hone, hall, hkey⟩ := Events.json_roundTrip
  refine ⟨?_, ?_, ?_⟩
  · obtain ⟨v, hv⟩ : ∃ v, Event.order.toJson = .ok v := exists_ok_of_isOk (by decide +kernel)
    exact ⟨v, hv, hone .order v (by decide +kernel) hv⟩
  · obtain ⟨v, hv⟩ : ∃ v, Events.toJson [.order, .scan] = .ok v :=
      exists_ok_of_isOk (by decide +kernel)
    exact ⟨v, hv, hall [.order, .scan] v (by decide +kernel) hv⟩
  · exact hkey {
      type := ⟨base64Tag, by decide +kernel⟩
      contentType := .octetStream
      payload := .binary (.ofText "/wA=")
      fits := by decide +kernel
      admitted := by decide +kernel }

end EventWire

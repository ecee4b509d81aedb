import EventWire.Proofs.Envelope.ReadBack

/-!
# Envelopes as bytes

An event as bytes carries an envelope when it has its id and its types, and each of
its payloads can be read from the bytes by content type (`SerializedEvent.Carries`).
Then the envelope is read from it (`ofSerialized_of_carries`), however the bytes came
to be. `ofSerialized_toSerialized` is about those that are written for an envelope.
-/

namespace EventWire

/-- A payload of some type on the wire, under its content type. -/
structure SerializedData.Carries (d : SerializedData) (t : DataType) (m : MediaType)
    (p : Payload) : Prop where
  type : d.type = t
  mediaType : d.mediaType = m
  payload : Payload.fromBytes d.bytes m = .ok p.readBack

/-- The metadata on the wire: there is as much of it as there is in the envelope. -/
def SerializedData.CarriesUser : Option SerializedData → Option UserMeta → Prop
  | none, none => True
  | some d, some u => d.Carries u.type u.contentType u.payload
  | _, _ => False

/-- An envelope on the wire. -/
structure SerializedEvent.Carries (s : SerializedEvent) (e : Event) : Prop where
  id : s.id = e.id
  type : s.type = e.type
  data : s.data.Carries e.metadata.dataType e.metadata.contentType e.data
  metadata : SerializedData.CarriesUser s.metadata e.metadata.user

namespace Event

/-- **An envelope is read from what carries it.** -/
theorem ofSerialized_of_carries {s : SerializedEvent} {e : Event} (h : s.Carries e) :
    Event.ofSerialized s = .ok e.readBack := by
  obtain ⟨hid, htype, ⟨hdataType, hmediaType, hdata⟩, huser⟩ := h
  have hparts := e.ofParts_readBack
  rw [ofSerialized, hid, htype, hdataType, hmediaType, hdata, ok_bind]
  -- Metadata is on both sides or on neither.
  unfold SerializedData.CarriesUser at huser
  split at huser
  · next hnone hnone' =>
    rw [Meta.readBack_of_none hnone'] at hparts
    rw [hnone]
    exact hparts
  · next d u hsome hsome' =>
    obtain ⟨htype, hmediaType, hpayload⟩ := huser
    rw [Meta.readBack_of_some hsome'] at hparts
    rw [hsome]
    dsimp only
    rw [hmediaType, hpayload, ok_bind, htype, UserMeta.ofParts_readBack, ok_bind]
    exact hparts
  · exact huser.elim

/-- What is written for an envelope carries it. -/
theorem carries_toSerialized {e : Event} {s : SerializedEvent}
    (hjson : ∀ p ∈ e.payloads, p.jsonLegible = true)
    (hxml : ∀ p ∈ e.payloads, p.xmlLegible = true) (h : e.toSerialized = .ok s) :
    s.Carries e := by
  obtain ⟨bytes, hbytes, hrest⟩ := bind_eq_ok.mp h
  have hdata := Payload.fromBytes_toBytes (hjson _ e.data_mem_payloads)
    (hxml _ e.data_mem_payloads) hbytes
  dsimp only at hrest
  cases huser : e.metadata.user with
  | none =>
    rw [huser] at hrest
    cases hrest
    exact ⟨rfl, rfl, ⟨rfl, rfl, hdata⟩, by rw [huser]; trivial⟩
  | some u =>
    rw [huser] at hrest
    obtain ⟨userBytes, huserBytes, hdone⟩ := bind_eq_ok.mp hrest
    cases hdone
    have hpayload := Payload.fromBytes_toBytes (hjson _ (user_mem_payloads huser))
      (hxml _ (user_mem_payloads huser)) huserBytes
    exact ⟨rfl, rfl, ⟨rfl, rfl, hdata⟩, by rw [huser]; exact ⟨rfl, rfl, hpayload⟩⟩

/-- **An envelope is read back from its bytes**, whatever its content types and
charsets. -/
theorem ofSerialized_toSerialized {e : Event} {s : SerializedEvent}
    (hpayloads : ∀ p ∈ e.payloads, p.jsonLegible = true ∧ p.xmlLegible = true)
    (h : e.toSerialized = .ok s) : Event.ofSerialized s = .ok e.readBack :=
  ofSerialized_of_carries (carries_toSerialized (fun p hp => (hpayloads p hp).1)
    (fun p hp => (hpayloads p hp).2) h)

/-- An order comes back from bytes in two charsets. -/
theorem ofSerialized_toSerialized_order :
    ∃ s, order.toSerialized = .ok s ∧ Event.ofSerialized s = .ok order.readBack := by
  obtain ⟨s, hs⟩ : ∃ s, order.toSerialized = .ok s := exists_ok_of_isOk (by decide +kernel)
  exact ⟨s, hs, ofSerialized_toSerialized (by decide +kernel) hs⟩

end Event

end EventWire

import EventWire.Proofs.Envelope.Agreement
import EventWire.Proofs.Envelope.Domain

/-!
# The kinds of restored payloads

A configured registry restores a payload in one of two ways. What the codec makes of the
bytes is the payload if it is JSON, XML, a text or bytes; otherwise the bytes are read by
their content type, and what is read so is of its kind. A codec without classes reads
nothing but its own kind (`payloadKind?_of_unmarshal`). A codec with classes reads what the
class of the type makes of the bytes, and the class may be one of texts, say, where the
content type is JSON.

So it can be read off the table of bindings whether a restored payload is of the kind of its
content type, and can be wrapped under it again (`Config.BindsOtherKind`,
`kind_deserialize_iff`).
-/

namespace EventWire

/-- The kind of the payloads that the values of a type are, if they are payloads. -/
def ValueType.payloadKind? : ValueType → Option PayloadKind
  | .json => some .json
  | .text => some .text
  | .tree => some .xml
  | .bytes => some .binary
  | .base64 => some .binary
  | .literal => none
  | .integer => none
  | .record _ _ => none
  | .pairs => none
  | .other _ => none

theorem Payload.map_kind_ofValue? (v : Value) : (ofValue? v).map kind = v.type.payloadKind? := by
  cases v with
  | _ => rfl

theorem Payload.fits_iff {p : Payload} {m : MediaType} :
    p.fits m = true ↔ p.kind = PayloadKind.ofMediaType m := by
  rw [fits, decide_eq_true_iff]
  exact eq_comm

namespace CodecKind

/-- True for the codecs that leave it to the class of a type what a value is. -/
def hasClasses : CodecKind → Bool
  | .json => false
  | .text => false
  | .binary => false
  | .typedJson => true
  | .xml => true

/-- The kind of what a codec writes. -/
def payloadKind : CodecKind → PayloadKind
  | .json => .json
  | .text => .text
  | .binary => .binary
  | .typedJson => .json
  | .xml => .xml

end CodecKind

section Bindings

variable {b : Binding} {charset : Charset} {fragment : Bool} {classes : ClassTable}
  {t : DataType} {m : MediaType} {bs : Bytes} {w : Value}

theorem Binding.ofMediaType_toCodec (b : Binding) (charset : Charset) (fragment : Bool)
    (classes : ClassTable) :
    PayloadKind.ofMediaType (b.toCodec charset fragment classes).mediaType
      = b.codec.payloadKind := by
  unfold toCodec
  cases b.codec with
  | json => exact Payload.ofMediaType_json charset
  | text => exact Payload.ofMediaType_plainText charset
  | binary => exact Payload.ofMediaType_octetStream
  | typedJson => exact Payload.ofMediaType_json charset
  | xml => exact Payload.ofMediaType_xml charset

/-- **A codec without classes reads its own kind.** -/
theorem Binding.payloadKind?_of_unmarshal (hplain : b.codec.hasClasses = false)
    (h : (b.toCodec charset fragment classes).unmarshal (.bytes bs) t m = .ok w) :
    w.type.payloadKind? = some b.codec.payloadKind := by
  unfold toCodec at h
  cases hcodec : b.codec with
  | json =>
    rw [hcodec, Codec.unmarshal] at h
    split at h
    · obtain ⟨_, -, hread⟩ := bind_eq_ok.mp h
      obtain ⟨v, -, rfl⟩ := Codec.exists_json_of_readJson hread
      rfl
    · cases h
  | text =>
    rw [hcodec, Codec.unmarshal] at h
    split at h
    · obtain ⟨_, -, hread⟩ := bind_eq_ok.mp h
      cases hread
      rfl
    · cases h
  | binary =>
    rw [hcodec] at h
    cases h
    rfl
  | typedJson =>
    rw [hcodec] at hplain
    cases hplain
  | xml =>
    rw [hcodec] at hplain
    cases hplain

/-- **A codec with classes reads an instance of the class of the type.** -/
theorem Binding.type_of_unmarshal (hclasses : b.codec.hasClasses = true)
    (h : (b.toCodec charset fragment classes).unmarshal (.bytes bs) t m = .ok w) :
    ∃ k, classes.get? t = some k ∧ w.type = k.type := by
  unfold toCodec at h
  cases hcodec : b.codec with
  | typedJson =>
    rw [hcodec, Codec.unmarshal, Codec.unmarshalInstance] at h
    obtain ⟨k, hk, hrest⟩ := bind_eq_ok.mp h
    dsimp only at hrest
    split at hrest
    · obtain ⟨_, -, hinstance⟩ := bind_eq_ok.mp hrest
      have hread := k.isInstance_of_ofJson (mapError_eq_ok.mp hinstance)
      exact ⟨k, ClassTable.find_eq_ok.mp hk, of_decide_eq_true hread⟩
    · cases hrest
  | xml =>
    rw [hcodec] at h
    obtain ⟨k, s, hk, hread⟩ := Payload.exists_ofXml_of_readBytes h
    exact ⟨k, hk, of_decide_eq_true (k.isInstance_of_ofXml hread)⟩
  | json =>
    rw [hcodec] at hclasses
    cases hclasses
  | text =>
    rw [hcodec] at hclasses
    cases hclasses
  | binary =>
    rw [hcodec] at hclasses
    cases hclasses

end Bindings

/-- The codec that is there for data reads instances of a class that are payloads of
another kind than the content type of the data stands for. -/
def Config.BindsOtherKind (c : Config) (charset : Charset) (classes : ClassTable)
    (d : SerializedData) : Prop :=
  ∃ b ∈ c.bindings, b.name = d.type.text ∧ c.Covers charset classes b d.mediaType ∧
    b.codec.hasClasses = true ∧ ∃ k kind, classes.get? d.type = some k ∧
      k.type.payloadKind? = some kind ∧ kind ≠ PayloadKind.ofMediaType d.mediaType

theorem Event.ofParts_eq_mismatch {id : EventId} {t : EventType} {p : Payload} {m : Meta} :
    Event.ofParts id t p m = .error (.payloadMismatch p.kind m.contentType) ↔
      p.kind ≠ PayloadKind.ofMediaType m.contentType := by
  rw [ne_eq, ← not_congr Payload.fits_iff, ofParts]
  split
  · next hfits =>
    refine ⟨?_, fun h => absurd hfits h⟩
    rintro ⟨⟩
  · next hfits => exact ⟨fun _ => hfits, fun _ => rfl⟩

theorem UserMeta.ofParts_eq_mismatch {t : DataType} {m : MediaType} {p : Payload} :
    UserMeta.ofParts t m p = .error (.payloadMismatch p.kind m) ↔
      p.kind ≠ PayloadKind.ofMediaType m := by
  rw [ne_eq, ← not_congr Payload.fits_iff, ofParts]
  split
  · next hfits =>
    refine ⟨fun h => ?_, fun h => absurd hfits h⟩
    split at h
    · cases h
    · split at h
      · cases h
      · cases h
  · next hfits => exact ⟨fun _ => hfits, fun _ => rfl⟩

section Configured

variable {c : Config} {charset : Charset} {classes : ClassTable} {r : Registry Codec}

/-- Of the bindings of a type, one at most is there for a media type. -/
theorem Config.eq_of_covers (husable : c.Usable) {a b : Binding} {t : DataType} {m : MediaType}
    (ha : a ∈ c.bindings) (hb : b ∈ c.bindings) (haname : a.name = t.text)
    (hbname : b.name = t.text) (hacovers : c.Covers charset classes a m)
    (hbcovers : c.Covers charset classes b m) : a = b :=
  husable.eq_of_base ha hb (haname.trans hbname.symm) (base_eq_of_covers hacovers hbcovers)

/-- **A payload that a configured registry restores is of the kind of its content type**,
unless the class of its type is of another. -/
theorem SerializedEvent.kind_payloadOf_iff {d : SerializedData} {p : Payload}
    (hregistry : c.registry classes = .ok r) (hcharset : c.charset = .ok charset)
    (h : payloadOf r d = .ok p) :
    p.kind = PayloadKind.ofMediaType d.mediaType ↔ ¬ c.BindsOtherKind charset classes d := by
  obtain ⟨w, hread, hpayload⟩ := bind_eq_ok.mp h
  obtain ⟨codec, hfind, hunmarshal⟩ := bind_eq_ok.mp (mapError_eq_ok.mp hread)
  obtain ⟨b, hb, hname, hcovers, rfl⟩ := (Config.find_reader_iff hregistry hcharset).mp hfind
  have hkind : PayloadKind.ofMediaType d.mediaType = b.codec.payloadKind :=
    (MediaType.ofMediaType_of_sameBase hcovers.1).trans (b.ofMediaType_toCodec ..)
  -- The binding of another kind can only be the one whose codec was found.
  have hother : c.BindsOtherKind charset classes d ↔ b.codec.hasClasses = true ∧
      ∃ k kind, classes.get? d.type = some k ∧ k.type.payloadKind? = some kind ∧
        kind ≠ PayloadKind.ofMediaType d.mediaType := by
    constructor
    · rintro ⟨a, ha, haname, hacovers, hclasses, hclass⟩
      obtain rfl := Config.eq_of_covers (Config.usable_of_registry hregistry) ha hb haname hname
        hacovers hcovers
      exact ⟨hclasses, hclass⟩
    · rintro ⟨hclasses, hclass⟩
      exact ⟨b, hb, hname, hcovers, hclasses, hclass⟩
  rw [hother]
  have hvalue := Payload.map_kind_ofValue? w
  cases hclasses : b.codec.hasClasses with
  | false =>
    refine iff_of_true ?_ fun hboth => nomatch hboth.1
    rw [Binding.payloadKind?_of_unmarshal hclasses hunmarshal] at hvalue
    obtain ⟨q, hq, hqkind⟩ := Option.map_eq_some_iff.mp hvalue
    rw [hq] at hpayload
    cases hpayload
    exact hqkind.trans hkind.symm
  | true =>
    obtain ⟨k, hk, htype⟩ := Binding.type_of_unmarshal hclasses hunmarshal
    rw [htype] at hvalue
    cases hw : Payload.ofValue? w with
    | none =>
      -- The instance is no payload, and the bytes were read by their content type.
      rw [hw] at hpayload hvalue
      refine iff_of_true (Payload.fits_iff.mp (Payload.fits_of_fromBytes hpayload)) ?_
      rintro ⟨-, k', kind, hk', hother, -⟩
      obtain rfl := Option.some.inj (hk.symm.trans hk')
      exact nomatch hvalue.trans hother
    | some q =>
      rw [hw] at hpayload hvalue
      cases hpayload
      constructor
      · rintro hsame ⟨-, k', kind, hk', hother, hne⟩
        obtain rfl := Option.some.inj (hk.symm.trans hk')
        exact hne ((Option.some.inj (hvalue.trans hother)).symm.trans hsame)
      · intro hnone
        by_contra hne
        exact hnone ⟨rfl, k, p.kind, hk, hvalue.symm, hne⟩

/-- **The payloads of an event that a configured registry restores are of the kinds of
their content types**, and can be wrapped under them again, unless the class of a type is of
another kind; and there is metadata if there was. -/
theorem SerializedEvent.kind_deserialize_iff {s : SerializedEvent} {e : DomainEvent}
    (hregistry : c.registry classes = .ok r) (hcharset : c.charset = .ok charset)
    (h : s.deserialize r = .ok e) :
    (e.data.kind = PayloadKind.ofMediaType s.data.mediaType ↔
        ¬ c.BindsOtherKind charset classes s.data) ∧
      (∀ m : Meta, m.contentType = s.data.mediaType →
        (Event.ofParts e.id e.type e.data m
            = .error (.payloadMismatch e.data.kind s.data.mediaType) ↔
          c.BindsOtherKind charset classes s.data)) ∧
      e.metadata.map (·.type) = s.metadata.map (·.type) ∧
      ∀ d ∈ s.metadata, ∀ u ∈ e.metadata,
        (u.payload.kind = PayloadKind.ofMediaType d.mediaType ↔
          ¬ c.BindsOtherKind charset classes d) ∧
        (UserMeta.ofParts u.type d.mediaType u.payload
            = .error (.payloadMismatch u.payload.kind d.mediaType) ↔
          c.BindsOtherKind charset classes d) := by
  obtain ⟨p, hp, hrest⟩ := bind_eq_ok.mp h
  have hdata := kind_payloadOf_iff hregistry hcharset hp
  have hwrapped (m : Meta) (hm : m.contentType = s.data.mediaType) :
      Event.ofParts s.id s.type p m = .error (.payloadMismatch p.kind s.data.mediaType) ↔
        c.BindsOtherKind charset classes s.data := by
    rw [← hm, Event.ofParts_eq_mismatch, hm, ne_eq, hdata, not_not]
  cases hmetadata : s.metadata with
  | none =>
    rw [hmetadata] at hrest
    cases hrest
    refine ⟨hdata, hwrapped, rfl, ?_⟩
    rintro d ⟨⟩
  | some d =>
    rw [hmetadata] at hrest
    obtain ⟨q, hq, hdone⟩ := bind_eq_ok.mp hrest
    cases hdone
    refine ⟨hdata, hwrapped, rfl, ?_⟩
    rintro d' ⟨⟩ u ⟨⟩
    have huser := kind_payloadOf_iff hregistry hcharset hq
    refine ⟨huser, ?_⟩
    rw [UserMeta.ofParts_eq_mismatch, ne_eq, huser, not_not]

end Configured

namespace SerializedEvent

/-- A note as text, with another one, as XML, for metadata. -/
def noted : SerializedEvent where
  id := .greatest
  type := Bookshop.note.retag .eventType
  data := Config.plainNote
  metadata := some Config.markedNote

/-- The same when the class of notes has read both. -/
def notedRestored : DomainEvent where
  id := .greatest
  type := Bookshop.note.retag .eventType
  data := .text "hi"
  metadata := some { type := Bookshop.note, payload := .text "hi" }

theorem payloadOf_of_text {r : Registry Codec} {d : SerializedData} {u : String}
    (h : r.deserialize d = .ok (.text u)) : payloadOf r d = .ok (.text u) := by
  rw [payloadOf, h]
  rfl

/-- The note as text can be wrapped again, its metadata cannot. -/
theorem kind_deserialize_iff_noted :
    Config.noting.registry Config.noteClasses = .ok Config.noteRegistry ∧
      noted.deserialize Config.noteRegistry = .ok notedRestored ∧
      ¬ Config.noting.BindsOtherKind .latin1 Config.noteClasses Config.plainNote ∧
      Config.noting.BindsOtherKind .latin1 Config.noteClasses Config.markedNote := by
  have hdata : payloadOf Config.noteRegistry Config.plainNote = .ok (.text "hi") :=
    payloadOf_of_text (Config.eq_of_gaveText (by decide +kernel))
  have huser : payloadOf Config.noteRegistry Config.markedNote = .ok (.text "hi") :=
    payloadOf_of_text (Config.eq_of_gaveText (by decide +kernel))
  have hrestored : noted.deserialize Config.noteRegistry = .ok notedRestored := by
    rw [deserialize, noted, hdata, ok_bind]
    dsimp only
    rw [huser]
    rfl
  obtain ⟨hkind, -, -, hmetadata⟩ :=
    kind_deserialize_iff Config.registry_noteClasses rfl hrestored
  obtain ⟨huserKind, -⟩ := hmetadata Config.markedNote rfl _ rfl
  refine ⟨Config.registry_noteClasses, hrestored, hkind.mp (by decide +kernel), ?_⟩
  by_contra hnone
  exact absurd (huserKind.mpr hnone) (by decide +kernel)

end SerializedEvent

/-- Notes as JSON of their class. -/
def Config.quoting : Config where
  encoding := "utf8"
  fragment := false
  bindings := [{ name := "Note", codec := .typedJson, marked := true }]

/-- The registry for notes as JSON of their class, which is one of texts. -/
def Config.quotingRegistry : Registry Codec :=
  (quoting.registry noteClasses).toOption.getD .empty

/-- A note as JSON. -/
def SerializedEvent.quoted : SerializedEvent where
  id := .greatest
  type := Bookshop.note.retag .eventType
  data := {
    type := Bookshop.note
    mediaType := .bare MediaType.applicationToken MediaType.jsonToken
    bytes := [0x22, 0x68, 0x69, 0x22] }
  metadata := none

/-- The note comes back as a text under the content type of JSON, where it cannot be. -/
theorem SerializedEvent.kind_deserialize_quoted :
    Config.quoting.validate = .ok () ∧
      Config.quoting.registry Config.noteClasses = .ok Config.quotingRegistry ∧
      ∃ e, quoted.deserialize Config.quotingRegistry = .ok e ∧
        PayloadKind.ofMediaType quoted.data.mediaType = .json ∧ e.data.kind = .text ∧
        Event.ofParts e.id e.type e.data
            { dataType := quoted.data.type, contentType := quoted.data.mediaType, user := none }
          = .error (.payloadMismatch .text quoted.data.mediaType) := by
  have hvalid : Config.quoting.validate = .ok () := by decide +kernel
  obtain ⟨r, hr⟩ := Config.exists_registry (Config.validate_iff.mp hvalid) Config.noteClasses
  have hregistry : Config.quoting.registry Config.noteClasses = .ok Config.quotingRegistry := by
    rw [Config.quotingRegistry, hr]
    rfl
  have hdata : payloadOf Config.quotingRegistry quoted.data = .ok (.text "hi") :=
    payloadOf_of_text (Config.eq_of_gaveText (by decide +kernel))
  refine ⟨hvalid, hregistry,
    { id := .greatest, type := quoted.type, data := .text "hi", metadata := none },
    ?_, by decide +kernel, rfl, ?_⟩
  · rw [deserialize, hdata]
    rfl
  · exact Event.ofParts_eq_mismatch.mpr (by decide +kernel)

end EventWire

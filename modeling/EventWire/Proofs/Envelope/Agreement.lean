import EventWire.Proofs.Config.Answers
import EventWire.Proofs.Payload.Unmarshal
import EventWire.Registry.Serialize

/-!
# Payloads read by codecs and by content types

The same bytes can be read by the codec that a registry finds for their media type, or
as a payload by the media type alone. Both decode them in the charset that the media type
names. If it names none, the codec takes its own and the payload is taken for UTF-8, which
makes no difference but for bytes beyond ASCII and a codec of Latin-1
(`fromBytes_of_decodeIn`).

Both make the same of the text, too, unless a class makes something else of it than the
media type stands for: text of JSON, or JSON or text of XML. So what a configured registry
reads is the payload exactly if it is of the kind of the media type (`fromBytes_iff_fits`).
-/

namespace EventWire

namespace MediaType

/-- A charset that is named is the charset, whatever the fallback. -/
theorem charsetOr_of_encoding {m : MediaType} (h : m.encoding ≠ none) (c d : Charset) :
    m.charsetOr c = m.charsetOr d := by
  unfold charsetOr charset?
  cases hencoding : m.encoding with
  | none => exact absurd hencoding h
  | some e =>
    dsimp only
    cases Charset.ofName e with
    | error e => rfl
    | ok c => rfl

/-- The kind of a payload is a matter of the base. -/
theorem ofMediaType_of_sameBase {k m : MediaType} (h : k.sameBase m = true) :
    PayloadKind.ofMediaType m = PayloadKind.ofMediaType k := by
  obtain ⟨hprimary, hsub⟩ := Bool.and_eq_true _ _ ▸ h
  rw [PayloadKind.ofMediaType, PayloadKind.ofMediaType, isText, isText, isXml, isXml, isJson,
    isJson, of_decide_eq_true hprimary, of_decide_eq_true hsub]

end MediaType

/-- What is read as a tree of JSON is what any reader makes of the text. -/
theorem Codec.exists_json_of_readJson {s : String} {w : Value} (h : readJson s = .ok w) :
    ∃ v, Json.parse? s = some v ∧ w = .json v := by
  unfold readJson at h
  split at h
  · next v hv =>
    cases h
    exact ⟨v, hv, rfl⟩
  · cases h

namespace Payload

variable {m : MediaType} {c : Charset} {bs : Bytes} {s : String}

theorem eq_json_of_ofValue? {w : Value} {v : Json} (h : ofValue? w = some (.json v)) :
    w = .json v := by
  cases w with
  | json u => cases h; rfl
  | _ => cases h

theorem eq_tree_of_ofValue? {w : Value} {n : Xml.Node} (h : ofValue? w = some (.xml n)) :
    w = .tree n := by
  cases w with
  | tree u => cases h; rfl
  | _ => cases h

/-- **Text that was decoded in the charset that a media type leads to is the text of the
payload**, unless the charset was the fallback and the bytes show that it was Latin-1. -/
theorem fromBytes_of_decodeIn (hkind : PayloadKind.ofMediaType m ≠ .binary)
    (hleads : m.charsetOr c = .ok c) (hdecoded : decodeIn c bs = .ok s)
    (halike : m.encoding ≠ none ∨ c ≠ .latin1 ∨ ∀ b ∈ bs, b.toNat < 0x80) :
    fromBytes bs m = ofText (PayloadKind.ofMediaType m) s := by
  have hdecode := mapError_eq_ok.mp hdecoded
  by_cases hencoding : m.encoding = none
  · have hcharset : charsetOf m = .ok .utf8 := by
      rw [charsetOf, MediaType.charsetOr, MediaType.charset?, hencoding]
      rfl
    have hascii := halike.resolve_left fun hne => hne hencoding
    exact fromBytes_of_decode hkind hcharset (Charset.decode_utf8_of_decode hdecode hascii)
  · have hcharset : charsetOf m = .ok c := by
      rw [charsetOf, MediaType.charsetOr_of_encoding hencoding _ c, hleads]
      rfl
    exact fromBytes_of_decode hkind hcharset hdecode

end Payload

namespace Config

section Configured

variable {c : Config} {charset : Charset} {classes : ClassTable} {t : DataType} {m : MediaType}
  {bs : Bytes} {w : Value} {p : Payload}

/-- What the codec of a binding reads is the payload, if it is of its kind. -/
theorem fromBytes_of_unmarshal {b : Binding} (hcovers : c.Covers charset classes b m)
    (halike : m.encoding ≠ none ∨ charset ≠ .latin1 ∨ ∀ b ∈ bs, b.toNat < 0x80)
    (hread : (c.codecOf charset classes b).unmarshal (.bytes bs) t m = .ok w)
    (hw : Payload.ofValue? w = some p) (hfits : p.fits m = true) :
    Payload.fromBytes bs m = .ok p := by
  have hserves := covers_iff.mp hcovers
  have hown := Codec.readsOwnCharset_of_serves hserves t
  have hkind := MediaType.ofMediaType_of_sameBase hcovers.1
  have hsame : p.fits m = p.fits (c.codecOf charset classes b).mediaType := by
    rw [Payload.fits, Payload.fits, hkind]
  have htext {kind : PayloadKind} {s : String} (hk : PayloadKind.ofMediaType m = kind)
      (hne : kind ≠ .binary) (hc : (c.codecOf charset classes b).charset? = some charset)
      (hs : decodeIn charset bs = .ok s) : Payload.fromBytes bs m = Payload.ofText kind s := by
    have hleads := MediaType.charsetOr_of_serves hserves (Codec.charsetOr_mediaType hc)
    rw [Payload.fromBytes_of_decodeIn (hk ▸ hne) hleads hs halike, hk]
  unfold codecOf Binding.toCodec at hown hkind hsame htext hread
  cases hcodec : b.codec with
  | json =>
    rw [hcodec] at hown hkind htext hread
    rw [hown.decodes charset rfl] at hread
    obtain ⟨s, hs, hjson⟩ := bind_eq_ok.mp hread
    obtain ⟨v, hv, rfl⟩ := Codec.exists_json_of_readJson hjson
    cases hw
    rw [htext (hkind.trans (Payload.ofMediaType_json charset)) (by decide) rfl hs, Payload.ofText,
      hv]
  | text =>
    rw [hcodec] at hown hkind htext hread
    rw [hown.decodes charset rfl] at hread
    obtain ⟨s, hs, rfl⟩ := map_eq_ok.mp hread
    cases hw
    rw [htext (hkind.trans (Payload.ofMediaType_plainText charset)) (by decide) rfl hs]
    rfl
  | binary =>
    rw [hcodec] at hkind hread
    cases hread
    cases hw
    exact Payload.fromBytes_ofBytes (hkind.trans Payload.ofMediaType_octetStream) bs
  | typedJson =>
    rw [hcodec] at hown hkind hsame htext hread
    rw [hown.decodes charset rfl] at hread
    obtain ⟨k, hk, hrest⟩ := bind_eq_ok.mp hread
    obtain ⟨s, hs, hinstance⟩ := bind_eq_ok.mp hrest
    rw [hsame] at hfits
    obtain ⟨v, rfl⟩ := Payload.eq_json_of_fits hfits
    obtain rfl := Payload.eq_json_of_ofValue? hw
    have hof := mapError_eq_ok.mp hinstance
    have hv := (k.ofJson_eq_ok_json (k.isInstance_of_ofJson hof)).mp hof
    rw [htext (hkind.trans (Payload.ofMediaType_json charset)) (by decide) rfl hs, Payload.ofText,
      hv]
  | xml =>
    rw [hcodec] at hsame hread
    obtain ⟨k, s, -, hinstance⟩ := Payload.exists_ofXml_of_readBytes hread
    rw [hsame] at hfits
    obtain ⟨n, rfl⟩ := Payload.eq_xml_of_fits hfits
    obtain rfl := Payload.eq_tree_of_ofValue? hw
    exact absurd (of_decide_eq_true (k.isInstance_of_ofXml hinstance)).symm k.type_ne_tree

/-- **What a configured registry reads is the payload of the same bytes** exactly if it is
of the kind of the media type, which names its charset, or else the bytes are not beyond
ASCII in Latin-1. -/
theorem fromBytes_iff_fits {r : Registry Codec} {d : SerializedData}
    (h : c.registry classes = .ok r) (hcharset : c.charset = .ok charset)
    (halike : d.mediaType.encoding ≠ none ∨ charset ≠ .latin1 ∨ ∀ b ∈ d.bytes, b.toNat < 0x80)
    (hread : r.deserialize d = .ok w) (hw : Payload.ofValue? w = some p) :
    Payload.fromBytes d.bytes d.mediaType = .ok p ↔ p.fits d.mediaType = true := by
  refine ⟨Payload.fits_of_fromBytes, fun hfits => ?_⟩
  obtain ⟨codec, hfind, hunmarshal⟩ := bind_eq_ok.mp hread
  obtain ⟨b, -, -, hcovers, rfl⟩ := (find_reader_iff h hcharset).mp hfind
  exact fromBytes_of_unmarshal hcovers halike hunmarshal hw hfits

end Configured

/-- True when a text was read, and which. -/
def gaveText (s : String) : Except SerializationError Value → Bool
  | .ok (.text u) => u = s
  | _ => false

theorem eq_of_gaveText {s : String} {x : Except SerializationError Value}
    (h : gaveText s x = true) : x = .ok (.text s) := by
  unfold gaveText at h
  split at h
  · rw [of_decide_eq_true h]
  · cases h

/-- A class for notes, which are texts. -/
def noteClasses : ClassTable :=
  Table.empty.insert Bookshop.note (.ofShape "Note" .text)

/-- The registry for notes of this class. -/
def noteRegistry : Registry Codec :=
  (noting.registry noteClasses).toOption.getD .empty

theorem registry_noteClasses : noting.registry noteClasses = .ok noteRegistry := by
  have hvalid : noting.validate = .ok () := by decide +kernel
  obtain ⟨r, hr⟩ := exists_registry (validate_iff.mp hvalid) noteClasses
  rw [noteRegistry, hr]
  rfl

/-- A note of ASCII that does not name its charset. -/
def plainNote : SerializedData where
  type := Bookshop.note
  mediaType := .bare MediaType.textToken MediaType.plainToken
  bytes := [0x68, 0x69]

theorem fromBytes_iff_fits_plainNote :
    noting.registry noteClasses = .ok noteRegistry ∧
      noteRegistry.deserialize plainNote = .ok (.text "hi") ∧
      (Payload.fromBytes plainNote.bytes plainNote.mediaType = .ok (.text "hi") ↔
        (Payload.text "hi").fits plainNote.mediaType = true) := by
  have hread : noteRegistry.deserialize plainNote = .ok (.text "hi") :=
    eq_of_gaveText (by decide +kernel)
  have hcharset : noting.charset = .ok .latin1 := rfl
  have hascii : ∀ b ∈ plainNote.bytes, b.toNat < 0x80 := by decide +kernel
  exact ⟨registry_noteClasses, hread,
    fromBytes_iff_fits registry_noteClasses hcharset (Or.inr (Or.inr hascii)) hread rfl⟩

/-- A note beyond ASCII that does not name its charset. -/
def bareNote : SerializedData where
  type := Bookshop.note
  mediaType := .bare MediaType.textToken MediaType.plainToken
  bytes := [0xC3, 0xA9]

/-- A note as XML. -/
def markedNote : SerializedData where
  type := Bookshop.note
  mediaType := .xml .latin1
  bytes := Text.Utf8.encode "<Note>hi</Note>".toList

/-- Notes are bound to the codec for text, which takes its own charset where none is named;
and the class makes text of XML. -/
theorem fromBytes_ne_deserialize :
    noting.validate = .ok () ∧
      (∃ b ∈ noting.bindings, b.name = Bookshop.note.text ∧ b.codec = .text) ∧
      noting.registry noteClasses = .ok noteRegistry ∧
      (noteRegistry.deserialize bareNote = .ok (.text "Ã©") ∧
        Payload.fromBytes bareNote.bytes bareNote.mediaType = .ok (.text "é")) ∧
      noteRegistry.deserialize markedNote = .ok (.text "hi") ∧
        Payload.fromBytes markedNote.bytes markedNote.mediaType ≠ .ok (.text "hi") := by
  have hown : noteRegistry.deserialize bareNote = .ok (.text "Ã©") :=
    eq_of_gaveText (by decide +kernel)
  refine ⟨by decide +kernel, by decide, registry_noteClasses, ⟨hown, ?_⟩, ?_, ?_⟩
  · have hdecode : Charset.utf8.decode bareNote.bytes = .ok "é" := Charset.decode_of_encode rfl
    exact Payload.fromBytes_of_decode (by decide) rfl hdecode
  · exact eq_of_gaveText (by decide +kernel)
  · intro hread
    have hfits := Payload.fits_of_fromBytes hread
    exact absurd hfits (by decide +kernel)

end Config

end EventWire

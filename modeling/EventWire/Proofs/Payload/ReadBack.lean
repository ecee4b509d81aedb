import EventWire.Payload.Wire
import EventWire.Proofs.Base64
import EventWire.Proofs.Charset
import EventWire.Proofs.Except
import EventWire.Proofs.Json.RoundTrip
import EventWire.Proofs.Xml.RoundTrip

/-!
# Payloads are read back

`Payload.readBack` is what a payload is after it has been written and read: JSON and
text are what they were, XML is in its normal form, and base64 is the same text with
its bytes known. The kind stays, so a payload that fits a content type still fits it.

It comes back from bytes (`fromBytes_toBytes`), from a JSON envelope
(`ofJson_toJson`), and from an XML envelope, where the element around it is in normal
form too (`ofXml_norm`). What that takes is said by kind: JSON and XML must be
legible, and base64 must decode where it is not decoded for writing.
-/

namespace EventWire

/-- The bytes that a base64 text stands for are known once they were asked for. -/
theorem Base64.bytes?_of_decode? {p : Base64} {bs : Bytes} (h : Base64.decode? p.text = some bs) :
    p.bytes? = (some bs, { text := p.text, known := some bs, sound := fun _ e => e ▸ h }) := by
  unfold bytes?
  split
  · next found hknown =>
    -- The bytes were known before: they are these, and nothing changes.
    have hfound := p.sound found hknown
    rw [h] at hfound
    obtain rfl := Option.some.inj hfound
    obtain ⟨text, known, sound⟩ := p
    subst hknown
    rfl
  · split
    · next found hfound =>
      rw [h] at hfound
      obtain rfl := Option.some.inj hfound
      rfl
    · next hnone =>
      rw [h] at hnone
      cases hnone

/-- A reader of JSON text gets the tree: it is not too deep, no key comes twice, and
the text of each double is read as that double. No key of an object comes twice that
was put together with `Json.insert`. -/
def Json.legible (v : Json) : Bool :=
  decide (v.depth ≤ maxDepth) && v.distinctKeys && v.doublesReadBack

/-- A reader of XML text gets the tree: attributes have valid names, and none comes
twice. No attribute does that was set with `Node.setAttribute`. -/
def Xml.Node.legible (n : Xml.Node) : Bool :=
  n.every Xml.validAttributes && n.every Xml.distinctAttributes

theorem Json.parse?_print_of_legible {v : Json} (h : v.legible = true) :
    Json.parse? v.print = some v := by
  rw [legible, Bool.and_eq_true, Bool.and_eq_true, decide_eq_true_eq] at h
  exact parse?_print h.1.1 h.1.2 h.2

theorem Xml.Node.parse_write_of_legible {n : Xml.Node} {s : String} (h : n.legible = true)
    (hwrite : n.write = .ok s) : Xml.Node.parse s = .ok n.norm := by
  rw [legible, Bool.and_eq_true] at h
  exact parse_write h.1 h.2 hwrite

namespace Payload

/-- The payload as it is read back. -/
def readBack : Payload → Payload
  | .json v => .json v
  | .xml n => .xml n.norm
  | .text s => .text s
  | .binary p => .binary p.bytes?.2

/-- JSON, if it is what the payload holds, is legible. -/
def jsonLegible : Payload → Bool
  | .json v => v.legible
  | _ => true

/-- The text of each double, if JSON is what the payload holds, is read as that double. -/
def doublesReadBack : Payload → Bool
  | .json v => v.doublesReadBack
  | _ => true

/-- XML, if it is what the payload holds, is legible. -/
def xmlLegible : Payload → Bool
  | .xml n => n.legible
  | _ => true

/-- XML, if it is what the payload holds, is read from its text as its normal form. -/
def XmlReads (p : Payload) : Prop :=
  ∀ n, p = .xml n → ∀ s, n.write = .ok s → Xml.Node.parse s = .ok n.norm

/-- Base64, if it is what the payload holds, stands for bytes. -/
def decodes : Payload → Bool
  | .binary p => (Base64.decode? p.text).isSome
  | _ => true

theorem xmlReads_of_xmlLegible {p : Payload} (h : p.xmlLegible = true) : p.XmlReads := by
  rintro n rfl s hwrite
  exact Xml.Node.parse_write_of_legible h hwrite

theorem kind_readBack (p : Payload) : p.readBack.kind = p.kind := by
  cases p with
  | json v => rfl
  | xml n => rfl
  | text s => rfl
  | binary b => rfl

theorem fits_readBack (p : Payload) (m : MediaType) : p.readBack.fits m = p.fits m := by
  rw [fits, fits, kind_readBack]

theorem kind_of_fits {p : Payload} {m : MediaType} (h : p.fits m = true) :
    PayloadKind.ofMediaType m = p.kind :=
  of_decide_eq_true h

theorem readBase64_text {p : Base64} (h : (Base64.decode? p.text).isSome = true) :
    readBase64 p.text = .ok (.binary p.bytes?.2) := by
  obtain ⟨bs, hbs⟩ := Option.isSome_iff_exists.mp h
  have htext : Base64.decode? (Base64.ofText p.text).text = some bs := hbs
  have hown := Base64.bytes?_of_decode? hbs
  have hread := Base64.bytes?_of_decode? htext
  unfold readBase64
  rw [hread, hown]
  rfl

/-! ## Text -/

theorem ofText_json_eq_ok {s : String} {p : Payload} :
    ofText .json s = .ok p ↔ ∃ v, Json.parse? s = some v ∧ p = .json v := by
  rw [ofText]
  cases Json.parse? s with
  | none => exact ⟨fun h => (nomatch h), fun ⟨_, h, _⟩ => (nomatch h)⟩
  | some v =>
    constructor
    · rintro ⟨⟩
      exact ⟨v, rfl, rfl⟩
    · rintro ⟨w, ⟨⟩, rfl⟩
      rfl

theorem ofText_xml_eq_ok {s : String} {p : Payload} :
    ofText .xml s = .ok p ↔ ∃ n, Xml.Node.parse s = .ok n ∧ p = .xml n := by
  rw [ofText]
  cases Xml.Node.parse s with
  | error e => exact ⟨fun h => (nomatch h), fun ⟨_, h, _⟩ => (nomatch h)⟩
  | ok n =>
    constructor
    · rintro ⟨⟩
      exact ⟨n, rfl, rfl⟩
    · rintro ⟨w, ⟨⟩, rfl⟩
      rfl

/-- What is read from text as a payload of a kind is of that kind. -/
theorem kind_of_ofText {kind : PayloadKind} {s : String} {p : Payload} (hkind : kind ≠ .binary)
    (h : ofText kind s = .ok p) : kind = p.kind := by
  cases kind with
  | json =>
    obtain ⟨v, -, rfl⟩ := ofText_json_eq_ok.mp h
    rfl
  | xml =>
    obtain ⟨n, -, rfl⟩ := ofText_xml_eq_ok.mp h
    rfl
  | text =>
    cases h
    rfl
  | binary => exact absurd rfl hkind

/-! ## Bytes -/

/-- Bytes are taken as they are, or else their text is read. -/
theorem fromBytes_eq_ok {bs : Bytes} {m : MediaType} {p : Payload} (h : fromBytes bs m = .ok p) :
    PayloadKind.ofMediaType m = .binary ∧ p = .ofBytes bs ∨
      PayloadKind.ofMediaType m ≠ .binary ∧ ∃ s, ofText (PayloadKind.ofMediaType m) s = .ok p := by
  unfold fromBytes at h
  dsimp only at h
  split at h
  · next hbinary =>
    cases h
    exact Or.inl ⟨hbinary, rfl⟩
  · next hkind =>
    obtain ⟨c, -, hdecoded⟩ := bind_eq_ok.mp h
    obtain ⟨s, -, htext⟩ := bind_eq_ok.mp hdecoded
    exact Or.inr ⟨hkind, s, htext⟩

/-- **What is read by a content type is of its kind.** -/
theorem fits_of_fromBytes {bs : Bytes} {m : MediaType} {p : Payload} (h : fromBytes bs m = .ok p) :
    p.fits m = true := by
  refine decide_eq_true ?_
  rcases fromBytes_eq_ok h with ⟨hbinary, rfl⟩ | ⟨hkind, s, htext⟩
  · exact hbinary
  · exact kind_of_ofText hkind htext

/-- Bytes are decoded in the charset of their content type. -/
theorem fromBytes_of_decode {m : MediaType} {c : Charset} {s : String} {bs : Bytes}
    (hkind : PayloadKind.ofMediaType m ≠ .binary) (hcharset : charsetOf m = .ok c)
    (h : c.decode bs = .ok s) : fromBytes bs m = ofText (PayloadKind.ofMediaType m) s := by
  unfold fromBytes
  dsimp only
  rw [if_neg hkind, hcharset, ok_bind, h, mapError_ok, ok_bind]

/-- Encoded text is decoded under the content type it was encoded for. -/
theorem fromBytes_encodeAs {m : MediaType} {s : String} {bs : Bytes}
    (hkind : PayloadKind.ofMediaType m ≠ .binary) (h : encodeAs m s = .ok bs) :
    fromBytes bs m = ofText (PayloadKind.ofMediaType m) s := by
  obtain ⟨c, hc, hencode⟩ := bind_eq_ok.mp h
  exact fromBytes_of_decode hkind hc (Charset.decode_of_encode (mapError_eq_ok.mp hencode))

/-- Bytes stay what they are under a binary content type. -/
theorem fromBytes_ofBytes {m : MediaType} (hkind : PayloadKind.ofMediaType m = .binary)
    (bs : Bytes) : fromBytes bs m = .ok (.ofBytes bs) := by
  unfold fromBytes
  dsimp only
  rw [if_pos hkind]

/-- Base64 is read back as the payload of its bytes. -/
theorem readBack_of_decode? {b : Base64} {bs : Bytes} (h : Base64.decode? b.text = some bs) :
    (binary b).readBack = .ofBytes bs := by
  rw [readBack, Base64.bytes?_of_decode? h]
  have hencode := Base64.encode_of_decode? h
  obtain ⟨text, known, sound⟩ := b
  subst hencode
  rfl

/-- Bytes are known from the start, and are not asked for in vain. -/
theorem readBack_ofBytes (bs : Bytes) : (ofBytes bs).readBack = ofBytes bs :=
  readBack_of_decode? (Base64.decode?_encode bs)

theorem check_eq_ok {p : Payload} {m : MediaType} {u : Unit} (h : p.check m = .ok u) :
    p.fits m = true := by
  unfold check at h
  split at h
  · assumption
  · cases h

/-- **A payload is read back from its bytes.** -/
theorem fromBytes_toBytes {p : Payload} {m : MediaType} {bs : Bytes}
    (hjson : p.jsonLegible = true) (hxml : p.xmlLegible = true) (h : p.toBytes m = .ok bs) :
    fromBytes bs m = .ok p.readBack := by
  obtain ⟨u, hcheck, hbytes⟩ := bind_eq_ok.mp h
  have hkind := kind_of_fits (check_eq_ok hcheck)
  cases p with
  | json v =>
    replace hkind : PayloadKind.ofMediaType m = .json := hkind
    rw [fromBytes_encodeAs (by rw [hkind]; decide) hbytes, hkind]
    show ofText .json v.print = _
    rw [ofText, Json.parse?_print_of_legible hjson]
    rfl
  | xml n =>
    replace hkind : PayloadKind.ofMediaType m = .xml := hkind
    dsimp only at hbytes
    split at hbytes
    · next s hwrite =>
      rw [fromBytes_encodeAs (by rw [hkind]; decide) hbytes, hkind]
      show ofText .xml s = _
      rw [ofText, Xml.Node.parse_write_of_legible hxml hwrite]
      rfl
    · cases hbytes
  | text s =>
    replace hkind : PayloadKind.ofMediaType m = .text := hkind
    rw [fromBytes_encodeAs (by rw [hkind]; decide) hbytes, hkind]
    rfl
  | binary b =>
    replace hkind : PayloadKind.ofMediaType m = .binary := hkind
    dsimp only at hbytes
    split at hbytes
    · next found hfound =>
      -- The bytes go out as they are; the text that is read is theirs, as it was before.
      cases hbytes
      rw [Base64.content?_eq_decode?] at hfound
      rw [fromBytes_ofBytes hkind, readBack_of_decode? hfound]
    · cases hbytes

/-! ## JSON envelopes -/

/-- **A payload is read back from a JSON envelope.** -/
theorem ofJson_toJson {p : Payload} {m : MediaType} {v : Json} (hfits : p.fits m = true)
    (hxml : p.XmlReads) (hdecodes : p.decodes = true) (h : p.toJson = .ok v)
    (field : String) : ofJson v m field = .ok p.readBack := by
  have hkind := kind_of_fits hfits
  cases p with
  | json j =>
    cases h
    rw [ofJson, hkind]
    rfl
  | xml n =>
    rw [toJson] at h
    split at h
    · next s hwrite =>
      cases h
      rw [ofJson, hkind]
      show ofText .xml s = _
      rw [ofText, hxml n rfl s hwrite]
      rfl
    · cases h
  | text s =>
    cases h
    rw [ofJson, hkind]
    rfl
  | binary b =>
    cases h
    rw [ofJson, hkind]
    show readBase64 b.text = _
    rw [readBase64_text hdecodes]
    rfl

end Payload

end EventWire

import EventWire.Proofs.Class
import EventWire.Proofs.Codec.Charset
import EventWire.Proofs.Payload.Marshal

/-!
# What a codec writes, read by the same codec

A codec of a binding that is not for XML reads back the payload that it wrote
(`exists_unmarshal_of_marshal`): JSON of a class that is JSON itself, too, and base64 as
the bytes that it stands for. A codec for XML goes on to the class of the type, and an
instance of a class that is no payload is none either (`ofValue?_of_unmarshal_xml`), so
that the bytes are left to be read by their media type.
-/

namespace EventWire

theorem ClassTable.find_eq_ok {classes : ClassTable} {t : DataType} {k : PayloadClass} :
    classes.find t = .ok k ↔ classes.get? t = some k := by
  unfold find
  cases classes.get? t with
  | none => simp
  | some other => simp

/-- What is read by a class that is no payload is none either. -/
theorem PayloadClass.ofValue?_of_ofXml {k : PayloadClass} {s : String} {w : Value}
    (hclass : k.type ∉ [ValueType.json, .text, .bytes, .base64]) (h : k.ofXml s = .ok w) :
    Payload.ofValue? w = none := by
  have htype : w.type = k.type := of_decide_eq_true (isInstance_of_ofXml h)
  rw [← htype] at hclass
  cases w with
  | json v => simp [Value.type] at hclass
  | text s => simp [Value.type] at hclass
  | bytes bs => simp [Value.type] at hclass
  | base64 p => simp [Value.type] at hclass
  | tree n => exact absurd htype.symm k.type_ne_tree
  | _ => rfl

namespace Payload

variable {p : Payload} {t : DataType} {bs : Bytes} {c : Charset} {classes : ClassTable}

theorem unmarshal_json_of_encodeText {v : Json} (hlegible : v.legible = true)
    (h : encodeText c v.print = .ok bs) :
    (Codec.json c).unmarshal (.bytes bs) t (.json c) = .ok (.json v) := by
  rw [Codec.unmarshal, if_pos (MediaType.isJson_json c),
    decodeText_of_encodeText (MediaType.charsetOr_json c c) h, ok_bind]
  dsimp only
  rw [Codec.readJson, Json.parse?_print_of_legible hlegible]

theorem unmarshal_typedJson_of_encodeText {v : Json} {k : PayloadClass}
    (hlegible : v.legible = true) (hk : classes.find t = .ok k)
    (hinstance : k.isInstance (.json v) = true) (h : encodeText c v.print = .ok bs) :
    (Codec.typedJson classes c).unmarshal (.bytes bs) t (.json c) = .ok (.json v) := by
  rw [Codec.unmarshal, Codec.unmarshalInstance, hk, ok_bind]
  dsimp only
  rw [if_pos (MediaType.isJson_json c), decodeText_of_encodeText (MediaType.charsetOr_json c c) h,
    ok_bind]
  dsimp only
  rw [(k.ofJson_eq_ok_json hinstance).mpr (Json.parse?_print_of_legible hlegible), mapError_ok]

theorem unmarshal_text_of_encodeText {s : String} (h : encodeText c s = .ok bs) :
    (Codec.text c).unmarshal (.bytes bs) t (.plainText c) = .ok (.text s) := by
  rw [Codec.unmarshal, if_pos (MediaType.isText_plainText c),
    decodeText_of_encodeText (MediaType.charsetOr_plainText c c) h, ok_bind]
  rfl

/-- **A codec that is not for XML reads back the payload that it wrote.** -/
theorem exists_unmarshal_of_marshal {b : Binding} {fragment : Bool} (hcodec : b.codec ≠ .xml)
    (hfits : p.fits (b.toCodec c fragment classes).mediaType = true)
    (hjson : p.jsonLegible = true)
    (h : (b.toCodec c fragment classes).marshal p.toValue t = .ok bs) :
    ∃ w, (b.toCodec c fragment classes).unmarshal (.bytes bs) t
        (b.toCodec c fragment classes).mediaType = .ok w ∧ ofValue? w = some p.readBack := by
  unfold Binding.toCodec at hfits h ⊢
  cases hkind : b.codec with
  | json =>
    rw [hkind] at hfits h
    obtain ⟨v, rfl⟩ := eq_json_of_fits hfits
    exact ⟨.json v, unmarshal_json_of_encodeText hjson (encodeText_of_marshal_json h), rfl⟩
  | text =>
    rw [hkind] at hfits h
    obtain ⟨s, rfl⟩ := eq_text_of_fits hfits
    exact ⟨.text s, unmarshal_text_of_encodeText h, rfl⟩
  | binary =>
    rw [hkind] at hfits h
    obtain ⟨b64, rfl⟩ := eq_binary_of_fits hfits
    refine ⟨.bytes bs, rfl, ?_⟩
    rw [readBack_of_decode? (decode?_of_marshal_binary h)]
    rfl
  | typedJson =>
    rw [hkind] at hfits h
    obtain ⟨v, rfl⟩ := eq_json_of_fits hfits
    obtain ⟨hencode, k, hk, hinstance⟩ := encodeText_of_marshal_typedJson h
    exact ⟨.json v, unmarshal_typedJson_of_encodeText hjson hk hinstance hencode, rfl⟩
  | xml => exact absurd hkind hcodec

/-- A value that an XML codec reads from bytes comes from the class of the type. -/
theorem exists_ofXml_of_readBytes {x : XmlCodec} {m : MediaType} {w : Value}
    (h : x.readBytes bs t m = .ok w) :
    ∃ k s, x.classes.get? t = some k ∧ k.ofXml s = .ok w := by
  rw [XmlCodec.readBytes] at h
  split at h
  · obtain ⟨_, -, hdecoded⟩ := bind_eq_ok.mp h
    obtain ⟨_, -, hparsed⟩ := bind_eq_ok.mp hdecoded
    obtain ⟨_, -, htree⟩ := bind_eq_ok.mp hparsed
    obtain ⟨_, -, hinstance⟩ := bind_eq_ok.mp htree
    obtain ⟨k, hk, hwritten⟩ := bind_eq_ok.mp hinstance
    obtain ⟨s, -, hread⟩ := bind_eq_ok.mp hwritten
    exact ⟨k, s, ClassTable.find_eq_ok.mp hk, mapError_eq_ok.mp hread⟩
  · cases h

/-- **What a codec for XML reads is no payload**, unless the class of the type is one. -/
theorem ofValue?_of_unmarshal_xml {b : Binding} {fragment : Bool} {m : MediaType} {w : Value}
    (hcodec : b.codec = .xml)
    (hclass : ∀ k, classes.get? t = some k → k.type ∉ [ValueType.json, .text, .bytes, .base64])
    (h : (b.toCodec c fragment classes).unmarshal (.bytes bs) t m = .ok w) :
    ofValue? w = none := by
  unfold Binding.toCodec at h
  rw [hcodec] at h
  obtain ⟨k, s, hk, hread⟩ := exists_ofXml_of_readBytes h
  exact k.ofValue?_of_ofXml (hclass k hk) hread

end Payload

end EventWire

import EventWire.Codec.Marshal
import EventWire.Config.Registry
import EventWire.Proofs.Class
import EventWire.Proofs.Codec.Xml
import EventWire.Proofs.Payload.ReadBack

/-!
# What a codec writes, read as a payload

The codecs that bindings ask for name the charset they write in, leave trees as they
are, and take values of one kind. So a payload of the kind of a codec's media type is
read back from what the codec wrote, by its media type alone
(`fromBytes_marshal`): whether or not a declaration stands before XML, and whether
JSON was written as such or as an instance of a class.
-/

namespace EventWire.Payload

/-- Text that a codec encoded is decoded under a media type with the same charset. -/
theorem fromBytes_encodeText {m : MediaType} {c : Charset} {s : String} {bs : Bytes}
    (hkind : PayloadKind.ofMediaType m ≠ .binary) (hcharset : charsetOf m = .ok c)
    (h : encodeText c s = .ok bs) : fromBytes bs m = ofText (PayloadKind.ofMediaType m) s := by
  have hencode : encodeAs m s = .ok bs := by
    rw [encodeAs, hcharset, ok_bind, mapError_eq_ok.mp h, mapError_ok]
  exact fromBytes_encodeAs hkind hencode

section Kinds

variable (c : Charset)

theorem ofMediaType_json : PayloadKind.ofMediaType (.json c) = .json := by
  cases c <;> rfl

theorem ofMediaType_plainText : PayloadKind.ofMediaType (.plainText c) = .text := by
  cases c <;> rfl

theorem ofMediaType_xml : PayloadKind.ofMediaType (.xml c) = .xml := by
  cases c <;> rfl

theorem ofMediaType_octetStream : PayloadKind.ofMediaType .octetStream = .binary := by
  rfl

theorem charsetOf_json : charsetOf (.json c) = .ok c := by
  cases c <;> rfl

theorem charsetOf_plainText : charsetOf (.plainText c) = .ok c := by
  cases c <;> rfl

theorem charsetOf_xml : charsetOf (.xml c) = .ok c := by
  cases c <;> rfl

end Kinds

section Fits

variable {p : Payload} {c : Charset}

theorem eq_json_of_fits (h : p.fits (.json c) = true) : ∃ v, p = .json v := by
  have hkind := kind_of_fits h
  rw [ofMediaType_json] at hkind
  cases p with
  | json v => exact ⟨v, rfl⟩
  | xml n => cases hkind
  | text s => cases hkind
  | binary b => cases hkind

theorem eq_text_of_fits (h : p.fits (.plainText c) = true) : ∃ s, p = .text s := by
  have hkind := kind_of_fits h
  rw [ofMediaType_plainText] at hkind
  cases p with
  | json v => cases hkind
  | xml n => cases hkind
  | text s => exact ⟨s, rfl⟩
  | binary b => cases hkind

theorem eq_binary_of_fits (h : p.fits .octetStream = true) : ∃ b, p = .binary b := by
  have hkind := kind_of_fits h
  rw [ofMediaType_octetStream] at hkind
  cases p with
  | json v => cases hkind
  | xml n => cases hkind
  | text s => cases hkind
  | binary b => exact ⟨b, rfl⟩

theorem eq_xml_of_fits (h : p.fits (.xml c) = true) : ∃ n, p = .xml n := by
  have hkind := kind_of_fits h
  rw [ofMediaType_xml] at hkind
  cases p with
  | json v => cases hkind
  | xml n => exact ⟨n, rfl⟩
  | text s => cases hkind
  | binary b => cases hkind

end Fits

section Codecs

variable {p : Payload} {t : DataType} {bs : Bytes} {c : Charset} {classes : ClassTable}

theorem encodeText_of_marshal_json {v : Json}
    (h : (Codec.json c).marshal (.json v) t = .ok bs) : encodeText c v.print = .ok bs := by
  rw [Codec.marshal] at h
  split at h
  · exact h
  · cases h

/-- Whatever the class is, its instance is JSON and is printed as such. -/
theorem encodeText_of_marshal_typedJson {v : Json}
    (h : (Codec.typedJson classes c).marshal (.json v) t = .ok bs) :
    encodeText c v.print = .ok bs ∧
      ∃ k, classes.find t = .ok k ∧ k.isInstance (.json v) = true := by
  obtain ⟨k, hk, hrest⟩ := bind_eq_ok.mp h
  split at hrest
  · next hinstance =>
    obtain ⟨text, htext, hencode⟩ := bind_eq_ok.mp hrest
    have hsame := k.toJson_of_isInstance hinstance
    rw [mapError_eq_ok.mp htext] at hsame
    cases hsame
    exact ⟨hencode, k, hk, hinstance⟩
  · cases hrest

/-- Only base64 that stands for bytes is written, as these bytes. -/
theorem decode?_of_marshal_binary {b : Base64} {m : MediaType}
    (h : (Codec.binary m).marshal (.base64 b) t = .ok bs) :
    Base64.decode? b.text = some bs := by
  rw [← Base64.content?_eq_decode?]
  rw [Codec.marshal] at h
  split at h
  · next found hfound =>
    cases h
    exact hfound
  · cases h

/-- Printed JSON is read as JSON. -/
theorem fromBytes_print {v : Json} (hlegible : v.legible = true)
    (h : encodeText c v.print = .ok bs) : fromBytes bs (.json c) = .ok (.json v) := by
  rw [fromBytes_encodeText (by rw [ofMediaType_json]; decide) (charsetOf_json c) h,
    ofMediaType_json, ofText, Json.parse?_print_of_legible hlegible]

theorem fromBytes_marshal_json (hfits : p.fits (.json c) = true) (hjson : p.jsonLegible = true)
    (h : (Codec.json c).marshal p.toValue t = .ok bs) :
    fromBytes bs (.json c) = .ok p.readBack := by
  obtain ⟨v, rfl⟩ := eq_json_of_fits hfits
  exact fromBytes_print hjson (encodeText_of_marshal_json h)

theorem fromBytes_marshal_typedJson (hfits : p.fits (.json c) = true)
    (hjson : p.jsonLegible = true)
    (h : (Codec.typedJson classes c).marshal p.toValue t = .ok bs) :
    fromBytes bs (.json c) = .ok p.readBack := by
  obtain ⟨v, rfl⟩ := eq_json_of_fits hfits
  exact fromBytes_print hjson (encodeText_of_marshal_typedJson h).1

theorem fromBytes_marshal_text (hfits : p.fits (.plainText c) = true)
    (h : (Codec.text c).marshal p.toValue t = .ok bs) :
    fromBytes bs (.plainText c) = .ok p.readBack := by
  obtain ⟨s, rfl⟩ := eq_text_of_fits hfits
  rw [fromBytes_encodeText (by rw [ofMediaType_plainText]; decide) (charsetOf_plainText c) h,
    ofMediaType_plainText]
  rfl

theorem fromBytes_marshal_binary (hfits : p.fits .octetStream = true)
    (h : (Codec.binary .octetStream).marshal p.toValue t = .ok bs) :
    fromBytes bs .octetStream = .ok p.readBack := by
  obtain ⟨b, rfl⟩ := eq_binary_of_fits hfits
  rw [fromBytes_ofBytes ofMediaType_octetStream,
    readBack_of_decode? (decode?_of_marshal_binary h)]

/-- A document is read with or without a declaration in front. -/
theorem fromBytes_marshal_xml {fragment : Bool} (hfits : p.fits (.xml c) = true)
    (hxml : p.xmlLegible = true)
    (h : (((XmlCodec.new classes).withCharset c).withFragment fragment).marshal p.toValue t
      = .ok bs) :
    fromBytes bs (.xml c) = .ok p.readBack := by
  obtain ⟨n, rfl⟩ := eq_xml_of_fits hfits
  rw [xmlLegible, Xml.Node.legible, Bool.and_eq_true] at hxml
  -- There are no adapters, so the tree of the payload is the one that is written.
  obtain ⟨-, s, hencode, hparse⟩ :=
    XmlCodec.exists_document_of_marshal (XmlCodec.outwardTree_eq_ok rfl rfl) hxml.1 hxml.2 h
  rw [fromBytes_encodeText (by rw [ofMediaType_xml]; decide) (charsetOf_xml c) hencode,
    ofMediaType_xml, ofText, Xml.Node.parse, hparse]
  rfl

/-- **A payload is read back from what the codec of a binding wrote.** -/
theorem fromBytes_marshal {b : Binding} {fragment : Bool}
    (hfits : p.fits (b.toCodec c fragment classes).mediaType = true)
    (hjson : p.jsonLegible = true) (hxml : p.xmlLegible = true)
    (h : (b.toCodec c fragment classes).marshal p.toValue t = .ok bs) :
    fromBytes bs (b.toCodec c fragment classes).mediaType = .ok p.readBack := by
  unfold Binding.toCodec at hfits h ⊢
  cases hcodec : b.codec with
  | json => rw [hcodec] at hfits h; exact fromBytes_marshal_json hfits hjson h
  | text => rw [hcodec] at hfits h; exact fromBytes_marshal_text hfits h
  | binary => rw [hcodec] at hfits h; exact fromBytes_marshal_binary hfits h
  | typedJson => rw [hcodec] at hfits h; exact fromBytes_marshal_typedJson hfits hjson h
  | xml => rw [hcodec] at hfits h; exact fromBytes_marshal_xml hfits hxml h

end Codecs

end EventWire.Payload

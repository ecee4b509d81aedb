import EventWire.Codec.Marshal
import EventWire.Proofs.Charset
import EventWire.Proofs.Except

/-!
# Codecs and their charsets

All codecs but the binary one work with text (`textOf`, `ofDecoded`) and have a charset
of their own, which stands between that text and the bytes. What they write is encoded
in it (`marshal_eq`). What they read is decoded in it as long as the media type of the
bytes is one that they read and leads to the same charset (`unmarshal_eq`), as does the
media type that they report (`reads_mediaType`, `charsetOr_mediaType`).

A codec that reads with its own charset never complains about the media type or about
the name of a charset: only a policy that makes up such an error could
(`raises_of_ofDecoded`).
-/

namespace EventWire

namespace MediaType

variable (c d : Charset)

theorem isJson_json : (json c).isJson = true := by
  cases c <;> rfl

theorem isText_plainText : (plainText c).isText = true := by
  cases c <;> rfl

theorem charsetOr_json : (json c).charsetOr d = .ok c := by
  cases c <;> rfl

theorem charsetOr_plainText : (plainText c).charsetOr d = .ok c := by
  cases c <;> rfl

end MediaType

/-- True for the complaint about a media type that a codec does not read, and for the one
about a charset of an unknown name. -/
def SerializationError.isUnsupported : SerializationError → Bool
  | .unsupportedMediaType _ _ => true
  | .charset (.unsupported _) => true
  | _ => false

/-- Decodes bytes in a charset. -/
def decodeIn (c : Charset) (bs : Bytes) : Except SerializationError String :=
  (c.decode bs).mapError .charset

theorem decodeText_eq {m : MediaType} {c fallback : Charset} (h : m.charsetOr fallback = .ok c)
    (bs : Bytes) : decodeText m fallback bs = (decodeIn c bs).map fun s => (c, s) := by
  rw [decodeText, h, mapError_ok, ok_bind, decodeIn]
  cases c.decode bs with
  | error e => rfl
  | ok s => rfl

/-- Bytes that are not decoded are to blame themselves. -/
theorem not_isUnsupported_of_decodeIn {c : Charset} {bs : Bytes} {e : SerializationError}
    (h : decodeIn c bs = .error e) : e.isUnsupported = false := by
  obtain ⟨e', he', rfl⟩ := mapError_eq_error.mp h
  obtain ⟨n, rfl⟩ := Charset.decode_eq_error he'
  rfl

theorem ClassTable.eq_of_find_eq_error {classes : ClassTable} {t : DataType}
    {e : SerializationError} (h : classes.find t = .error e) : e = .classNotFound t := by
  unfold find at h
  split at h
  · cases h
  · cases h
    rfl

/-- A class that is missing, and text that is no instance of it, are no matter of the
media type. -/
theorem XmlCodec.not_isUnsupported_of_ofTree {x : XmlCodec} {n : Xml.Node} {t : DataType}
    {e : SerializationError} (h : x.ofTree n t = .error e) : e.isUnsupported = false := by
  rcases bind_eq_error.mp h with hadapter | ⟨n', -, hrest⟩
  · obtain ⟨_, -, rfl⟩ := mapError_eq_error.mp hadapter
    rfl
  rcases bind_eq_error.mp hrest with hclass | ⟨k, -, hrest⟩
  · obtain rfl := ClassTable.eq_of_find_eq_error hclass
    rfl
  rcases bind_eq_error.mp hrest with hwrite | ⟨s, -, hread⟩
  · obtain ⟨_, -, rfl⟩ := mapError_eq_error.mp hwrite
    rfl
  · obtain ⟨_, -, rfl⟩ := mapError_eq_error.mp hread
    rfl

/-- A review stops with an error that the policy raised about some finding. -/
theorem Policy.exists_of_review_eq_error {p : Policy} {e : SerializationError} :
    ∀ {fs : List Xml.Finding}, review p fs = .error e → ∃ f ∈ fs, p f = .error e := by
  intro fs
  induction fs with
  | nil =>
    intro h
    cases h
  | cons f rest ih =>
    intro h
    rw [review] at h
    split at h
    · obtain ⟨g, hg, hraised⟩ := ih h
      exact ⟨g, List.mem_cons_of_mem _ hg, hraised⟩
    · next e' he' =>
      cases h
      exact ⟨f, List.mem_cons_self .., he'⟩

namespace Codec

/-- The charset of a codec for text. -/
def charset? : Codec → Option Charset
  | .json c => some c
  | .text c => some c
  | .binary _ => none
  | .typedJson _ c => some c
  | .xml x => some x.charset

/-- The text that a codec writes for a value, before it is encoded. -/
def textOf (codec : Codec) (v : Value) (t : DataType) : Except SerializationError String :=
  match codec, v with
  | .json _, .json j =>
    if j.isStructured then .ok j.print
    else .error (.typeMismatch .json "a JSON object or array")
  | .json _, _ => .error (.typeMismatch .json "a JSON object or array")
  | .text _, .text s => .ok s
  | .text _, .literal s => .ok s
  | .text _, _ => .error (.typeMismatch .text "a string")
  | .binary _, _ => .error (.typeMismatch .binary binaryForm)
  | .typedJson classes _, v => do
    let k ← classes.find t
    if k.isInstance v then (k.toJson v).mapError fun e => .codecFailed .typedJson (.mapping e)
    else throw (.notAssignable t k.label)
  | .xml x, v => do
    let n ← x.outwardTree v t
    x.policy.review (x.validate n)
    (Xml.writeDocument n x.declaration).mapError XmlCodec.inputFault

/-- What a codec makes of the text that bytes were decoded to, or of the failure to
decode them. -/
def ofDecoded (codec : Codec) (decoded : Except SerializationError String) (t : DataType) :
    Except SerializationError Value :=
  match codec with
  | .json _ => decoded >>= readJson
  | .text _ => decoded.map .text
  | .binary _ => .error (.typeMismatch .binary binaryForm)
  | .typedJson classes _ => do
    let k ← classes.find t
    let s ← decoded
    (k.ofJson s).mapError fun _ => .malformed .json .format
  | .xml x => do
    let s ← decoded
    let document ← (Xml.Document.parse s).mapError XmlCodec.inputFault
    x.policy.review
      (XmlCodec.encodingFindings document.declared x.charset ++ x.validate document.root)
    x.ofTree document.root t

/-- True for the media types of bytes that a codec reads. -/
def reads : Codec → MediaType → Bool
  | .json _, m => m.isJson
  | .text _, m => m.isText
  | .binary _, _ => true
  | .typedJson _ _, m => m.isJson
  | .xml _, m => m.isXml

/-- The policy of a codec stops with this error at some finding. -/
def Raises (codec : Codec) (e : SerializationError) : Prop :=
  ∃ x f, codec = .xml x ∧ x.policy f = .error e

variable {codec : Codec} {c : Charset} {m : MediaType} {bs : Bytes} {t : DataType}

/-! ## Between text and bytes -/

/-- **What a codec writes is text in its own charset.** -/
theorem marshal_eq (h : codec.charset? = some c) (v : Value) (t : DataType) :
    codec.marshal v t = codec.textOf v t >>= encodeText c := by
  cases codec with
  | json d =>
    cases h
    cases v with
    | json j =>
      rw [marshal, textOf]
      split
      · rfl
      · rfl
    | _ => rfl
  | text d =>
    cases h
    cases v with
    | _ => rfl
  | binary k => cases h
  | typedJson classes d =>
    cases h
    rw [marshal, textOf, marshalInstance]
    cases classes.find t with
    | error e => rfl
    | ok k =>
      rw [ok_bind, ok_bind]
      split
      · rfl
      · rfl
  | xml x =>
    cases h
    rw [marshal, textOf, XmlCodec.marshal]
    cases x.outwardTree v t with
    | error e => rfl
    | ok n =>
      rw [ok_bind, ok_bind]
      cases x.policy.review (x.validate n) with
      | error e => rfl
      | ok u => rfl

/-- **What a codec reads is text in its own charset**, if the media type leads to it. -/
theorem unmarshal_eq (hcharset : codec.charset? = some c) (hreads : codec.reads m = true)
    (hleads : m.charsetOr c = .ok c) :
    codec.unmarshal (.bytes bs) t m = codec.ofDecoded (decodeIn c bs) t := by
  cases codec with
  | json d =>
    cases hcharset
    have hjson : m.isJson = true := hreads
    rw [unmarshal, if_pos hjson, decodeText_eq hleads, ofDecoded]
    cases decodeIn c bs with
    | error e => rfl
    | ok s => rfl
  | text d =>
    cases hcharset
    have htext : m.isText = true := hreads
    rw [unmarshal, if_pos htext, decodeText_eq hleads, ofDecoded]
    cases decodeIn c bs with
    | error e => rfl
    | ok s => rfl
  | binary k => cases hcharset
  | typedJson classes d =>
    cases hcharset
    have hjson : m.isJson = true := hreads
    rw [unmarshal, unmarshalInstance, ofDecoded]
    cases classes.find t with
    | error e => rfl
    | ok k =>
      rw [ok_bind, ok_bind]
      dsimp only
      rw [if_pos hjson, decodeText_eq hleads]
      cases decodeIn c bs with
      | error e => rfl
      | ok s => rfl
  | xml x =>
    cases hcharset
    have hxml : m.isXml = true := hreads
    rw [unmarshal, XmlCodec.readBytes, if_pos hxml, decodeText_eq hleads, ofDecoded]
    cases decodeIn x.charset bs with
    | error e => rfl
    | ok s => rfl

/-! ## The media type of a codec -/

/-- A codec reads the media type that it reports. -/
theorem reads_mediaType (codec : Codec) : codec.reads codec.mediaType = true := by
  cases codec with
  | json c => exact MediaType.isJson_json c
  | text c => exact MediaType.isText_plainText c
  | binary m => rfl
  | typedJson classes c => exact MediaType.isJson_json c
  | xml x => exact x.isXml

/-- The media type that a codec reports leads to its charset. -/
theorem charsetOr_mediaType (h : codec.charset? = some c) :
    codec.mediaType.charsetOr c = .ok c := by
  cases codec with
  | json d => cases h; exact MediaType.charsetOr_json c c
  | text d => cases h; exact MediaType.charsetOr_plainText c c
  | binary m => cases h
  | typedJson classes d => cases h; exact MediaType.charsetOr_json c c
  | xml x => cases h; exact x.agrees

/-- What a codec reads is a matter of the base. -/
theorem reads_of_sameBase {k : MediaType} (h : k.sameBase m = true) :
    codec.reads m = codec.reads k := by
  obtain ⟨hprimary, hsub⟩ := Bool.and_eq_true _ _ ▸ h
  have hp : k.primary = m.primary := of_decide_eq_true hprimary
  have hs : k.sub = m.sub := of_decide_eq_true hsub
  cases codec with
  | json c => rw [reads, reads, MediaType.isJson, MediaType.isJson, hp, hs]
  | text c => rw [reads, reads, MediaType.isText, MediaType.isText, MediaType.isXml,
      MediaType.isXml, hp, hs]
  | binary m => rfl
  | typedJson classes c => rw [reads, reads, MediaType.isJson, MediaType.isJson, hp, hs]
  | xml x => rw [reads, reads, MediaType.isXml, MediaType.isXml, hp, hs]

/-! ## Complaints -/

/-- **A codec that reads in its own charset does not complain** about media types or
names of charsets, unless its policy does. -/
theorem raises_of_ofDecoded {e : SerializationError} (hcharset : codec.charset? = some c)
    (h : codec.ofDecoded (decodeIn c bs) t = .error e) (he : e.isUnsupported = true) :
    codec.Raises e := by
  have hdecoded : decodeIn c bs ≠ .error e := fun hfail => by
    rw [not_isUnsupported_of_decodeIn hfail] at he
    cases he
  cases codec with
  | json d =>
    rcases bind_eq_error.mp h with hfail | ⟨s, -, hread⟩
    · exact absurd hfail hdecoded
    · rw [readJson] at hread
      split at hread
      · cases hread
      · cases hread
        cases he
  | text d => exact absurd (map_eq_error.mp h) hdecoded
  | binary m => cases hcharset
  | typedJson classes d =>
    rcases bind_eq_error.mp h with hclass | ⟨k, -, hrest⟩
    · obtain rfl := ClassTable.eq_of_find_eq_error hclass
      cases he
    · rcases bind_eq_error.mp hrest with hfail | ⟨s, -, hread⟩
      · exact absurd hfail hdecoded
      · obtain ⟨_, -, rfl⟩ := mapError_eq_error.mp hread
        cases he
  | xml x =>
    rcases bind_eq_error.mp h with hfail | ⟨s, -, hrest⟩
    · exact absurd hfail hdecoded
    rcases bind_eq_error.mp hrest with hparse | ⟨document, -, hrest⟩
    · obtain ⟨_, -, rfl⟩ := mapError_eq_error.mp hparse
      cases he
    rcases bind_eq_error.mp hrest with hreview | ⟨-, -, htree⟩
    · obtain ⟨f, -, hraised⟩ := Policy.exists_of_review_eq_error hreview
      exact ⟨x, f, rfl, hraised⟩
    · rw [XmlCodec.not_isUnsupported_of_ofTree htree] at he
      cases he

end Codec

end EventWire

import EventWire.Bookshop
import EventWire.Proofs.Codec.Charset
import EventWire.Proofs.Registry.Calls

/-!
# What a reader that is found reads with

A registry finds only readers that were registered under a media type that serves for
the one asked for (`exists_registered_of_find`), and it finds one if there is any
(`exists_find_of_serves`).

The codecs that calls put under their own media types stay codecs of one charset. The
base of the media type asked for is that of the codec's own, so the codec reads it; and
its encoding names the charset of the codec or nothing, as names of charsets do not
depend on case (`charsetOr_of_serves`). So whichever codec is found, it reads in the
charset that it writes (`readsOwnCharset_of_find`).
-/

namespace EventWire

/-- Media types that serve for one another lead to the same charset. -/
theorem MediaType.charsetOr_of_serves {k m : MediaType} {c : Charset} (hserves : k.serves m = true)
    (h : k.charsetOr c = .ok c) : m.charsetOr c = .ok c := by
  obtain ⟨-, hnone | ⟨x, y, hregistered, hasked, hsame⟩⟩ := serves_iff.mp hserves
  · rw [charsetOr, charset?, hnone]
    rfl
  · rw [charsetOr, charset?, hregistered] at h
    obtain ⟨found, hfound, hc⟩ := map_eq_ok.mp h
    obtain ⟨d, hd, rfl⟩ := map_eq_ok.mp hfound
    obtain rfl : d = c := hc
    rw [charsetOr, charset?, hasked]
    dsimp only
    rw [Charset.ofName_of_sameIgnoringCase hsame hd]
    rfl

/-- A codec that uses one charset, its own, for what it writes and for bytes of a media
type; the codec for bytes hands them over as they are. -/
structure Codec.ReadsOwnCharset (codec : Codec) (t : DataType) (m : MediaType) : Prop where
  encodes : ∀ c, codec.charset? = some c → ∀ v u,
    codec.marshal v u = codec.textOf v u >>= encodeText c
  decodes : ∀ c, codec.charset? = some c → ∀ bs,
    codec.unmarshal (.bytes bs) t m = codec.ofDecoded (decodeIn c bs) t
  copies : codec.charset? = none → ∀ bs, codec.unmarshal (.bytes bs) t m = .ok (.bytes bs)
  /-- Only a policy of its own could complain. -/
  supports : ∀ bs e, codec.unmarshal (.bytes bs) t m = .error e → e.isUnsupported = true →
    codec.Raises e
  /-- Neither the strict policy nor the lenient one does. -/
  supportsPlainly : (∀ x, codec = .xml x → x.policy = Policy.strict ∨ x.policy = Policy.lenient) →
    ∀ bs e, codec.unmarshal (.bytes bs) t m = .error e → e.isUnsupported = false

namespace Codec

variable {codec : Codec} {m : MediaType}

/-- The strict policy has no complaint but that of a finding, and the lenient one none. -/
theorem not_isUnsupported_of_raises
    (hplain : ∀ x, codec = .xml x → x.policy = Policy.strict ∨ x.policy = Policy.lenient)
    {e : SerializationError} (h : codec.Raises e) : e.isUnsupported = false := by
  obtain ⟨x, f, hx, hraised⟩ := h
  rcases hplain x hx with hstrict | hlenient
  · rw [hstrict, Policy.strict] at hraised
    split at hraised
    · cases hraised
      rfl
    · cases hraised
  · rw [hlenient, Policy.lenient] at hraised
    cases hraised

/-- **A codec reads in its own charset whatever its media type serves for.** -/
theorem readsOwnCharset_of_serves (h : codec.mediaType.serves m = true) (t : DataType) :
    codec.ReadsOwnCharset t m := by
  have hreads : codec.reads m = true := by
    rw [reads_of_sameBase (MediaType.serves_iff.mp h).1]
    exact codec.reads_mediaType
  have hdecodes (c : Charset) (hc : codec.charset? = some c) (bs : Bytes) :
      codec.unmarshal (.bytes bs) t m = codec.ofDecoded (decodeIn c bs) t :=
    unmarshal_eq hc hreads (MediaType.charsetOr_of_serves h (charsetOr_mediaType hc))
  have hcopies (hc : codec.charset? = none) (bs : Bytes) :
      codec.unmarshal (.bytes bs) t m = .ok (.bytes bs) := by
    cases codec with
    | binary k => rfl
    | json c => cases hc
    | text c => cases hc
    | typedJson classes c => cases hc
    | xml x => cases hc
  have hsupports (bs : Bytes) (e : SerializationError)
      (hfail : codec.unmarshal (.bytes bs) t m = .error e) (he : e.isUnsupported = true) :
      codec.Raises e := by
    cases hc : codec.charset? with
    | none =>
      rw [hcopies hc] at hfail
      cases hfail
    | some c =>
      rw [hdecodes c hc] at hfail
      exact raises_of_ofDecoded hc hfail he
  exact {
    encodes := fun c hc => marshal_eq hc
    decodes := hdecodes
    copies := hcopies
    supports := hsupports
    supportsPlainly := fun hplain bs e hfail => by
      by_contra hne
      have he : e.isUnsupported = true := Bool.not_eq_false _ ▸ hne
      exact hne (not_isUnsupported_of_raises hplain (hsupports bs e hfail he)) }

end Codec

namespace Registry

section Found

variable {α : Type} [HasMediaType α] {r : Registry α} {calls : List (Call α)} {t : DataType}
  {k m : MediaType} {a : α}

/-- What is there to read with was called for last. -/
theorem Holds.mem_entries (h : Holds r calls) :
    (k, a) ∈ (r.readers.listOf t).entries ↔ lastReader? calls t k = some a := by
  rw [← h.readers, ReaderList.held?_eq_some]

/-- **What is found was registered under a media type that serves.** -/
theorem Holds.exists_registered_of_find (h : Holds r calls)
    (hfind : r.readers.find t (some m) = .ok a) :
    ∃ k, lastReader? calls t k = some a ∧ k.serves m = true := by
  obtain ⟨k, hmem, hserves⟩ := ReaderList.exists_serves_of_lookup? (Readers.find_eq_ok.mp hfind)
  exact ⟨k, h.mem_entries.mp hmem, hserves⟩

/-- **Something is found if anything that serves was registered.** -/
theorem Holds.exists_find_of_serves (h : Holds r calls) (hlast : lastReader? calls t k = some a)
    (hserves : k.serves m = true) : ∃ b, r.readers.find t (some m) = .ok b := by
  obtain ⟨b, hb⟩ := Option.isSome_iff_exists.mp
    (ReaderList.isSome_lookup? (h.mem_entries.mpr hlast) hserves)
  exact ⟨b, Readers.find_eq_ok.mpr hb⟩

/-- True for the calls that register for writing and reading at once. -/
def Call.isAdd : Call α → Bool
  | .add .. => true
  | .addDefault .. => true
  | .addReader .. => false
  | .setDefault .. => false

/-- Such calls put what they register under its own media type. -/
theorem Call.mediaType_of_reader? {c : Call α} (hadd : c.isAdd = true)
    (h : c.reader? t = some (k, a)) : HasMediaType.mediaType a = k := by
  cases c with
  | add u b =>
    rw [reader?] at h
    split at h
    · cases h; rfl
    · cases h
  | addDefault u b =>
    rw [reader?] at h
    split at h
    · cases h; rfl
    · cases h
  | addReader u m b => cases hadd
  | setDefault u m => cases hadd

end Found

/-- **Whatever codec is found reads in its own charset**, if codecs were registered for
writing and reading at once. -/
theorem readsOwnCharset_of_find {calls : List (Call Codec)} (hadd : ∀ c ∈ calls, c.isAdd = true)
    {t : DataType} {m : MediaType} {codec : Codec}
    (hfind : (ofCalls calls).readers.find t (some m) = .ok codec) :
    codec.ReadsOwnCharset t m := by
  obtain ⟨k, hlast, hserves⟩ := (holds_ofCalls calls).exists_registered_of_find hfind
  obtain ⟨c, hc, hreader⟩ := List.mem_filterMap.mp (mem_registered_of_lastReader? hlast)
  have hown : codec.mediaType = k := Call.mediaType_of_reader? (hadd c hc) hreader
  exact Codec.readsOwnCharset_of_serves (hown ▸ hserves) t

/-- XML in Latin-1, by one of its other names. -/
def letterType : MediaType :=
  (MediaType.bare MediaType.textToken MediaType.xmlToken).withEncoding "latin1"

/-- The codec that reports it. -/
def letterCodec : XmlCodec :=
  { XmlCodec.new .empty with
    mediaType := letterType
    charset := .latin1
    isXml := by decide +kernel
    agrees := rfl }

/-- Notes as plain text, and then as XML. -/
def letterCalls : List (Call Codec) :=
  [.add Bookshop.note (.text .usAscii), .addDefault Bookshop.note (.xml letterCodec)]

theorem readsOwnCharset_of_find_letter :
    (XmlCodec.new .empty).withMediaType letterType = .ok letterCodec ∧
      (ofCalls letterCalls).readers.find Bookshop.note (some (letterType.withEncoding "LATIN1"))
        = .ok (.xml letterCodec) ∧
      (Codec.xml letterCodec).ReadsOwnCharset Bookshop.note (letterType.withEncoding "LATIN1") := by
  have hfind : (ofCalls letterCalls).readers.find Bookshop.note
      (some (letterType.withEncoding "LATIN1")) = .ok (.xml letterCodec) := rfl
  exact ⟨rfl, hfind, readsOwnCharset_of_find (by decide) hfind⟩

end Registry

end EventWire

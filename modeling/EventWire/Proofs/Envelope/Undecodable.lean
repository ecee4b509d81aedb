import EventWire.Proofs.Envelope.Reread
import EventWire.Proofs.Envelope.Names
import EventWire.Proofs.Payload.Marshal

/-!
# Base64 that does not decode

The text of a payload in base64 is not checked when an envelope is built or written, so an
envelope can hold one that stands for no bytes. It has no bytes to be written as, and every
reader decodes the text that it finds (`readBase64_of_decode?_eq_none`). In JSON that is the text
that was written (`ofJson_undecodable`). In XML it is not if the text is blank: the element around
it is then read as an empty one, and no text at all stands for no bytes at all. So the envelope is
refused by all readers, but for one of a blank text, which is read from XML as one of no bytes
(`undecodable`).
-/

namespace EventWire

open Xml (Node)

namespace Payload

variable {b : Base64} {m : MediaType}

theorem readBase64_of_decode?_eq_none {s : String} (h : Base64.decode? s = none) :
    readBase64 s = .error .base64 := by
  have hcontent : (Base64.ofText s).content? = none := by
    rw [Base64.content?_eq_decode?]
    exact h
  unfold readBase64
  split
  · next hread =>
    rw [Base64.content?, hread] at hcontent
    cases hcontent
  · rfl

/-- The empty text stands for no bytes. -/
theorem readBase64_empty : readBase64 "" = .ok (ofBytes []) :=
  readBase64_text (p := .ofBytes []) rfl

/-- There are no bytes to write. -/
theorem toBytes_undecodable (hfits : (binary b).fits m = true)
    (h : Base64.decode? b.text = none) : (binary b).toBytes m = .error .base64 := by
  have hcontent : b.content? = none := (Base64.content?_eq_decode? b).trans h
  have hcheck : (binary b).check m = .ok () := by rw [check, if_pos hfits]
  rw [toBytes, hcheck, ok_bind]
  rw [hcontent]
  rfl

/-- The text is found in JSON as it was written. -/
theorem ofJson_undecodable (hfits : (binary b).fits m = true) (h : Base64.decode? b.text = none)
    {v : Json} (hv : (binary b).toJson = .ok v) (field : String) :
    Payload.ofJson v m field = .error .base64 := by
  cases hv
  rw [Payload.ofJson, kind_of_fits hfits]
  exact readBase64_of_decode?_eq_none h

/-- The text is found in XML as it was written unless it is blank; a blank one is lost. -/
theorem ofXml_norm_undecodable (hfits : (binary b).fits m = true)
    (h : Base64.decode? b.text = none) (name field : String) :
    Payload.ofXml ((Node.named name).push (binary b).toContent).norm m field
      = if Text.blankOnly b.text.toList then .ok (ofBytes []) else .error .base64 := by
  rw [ofXml_norm_binary (kind_of_fits hfits), Node.text_norm_withText_eq]
  split
  · exact readBase64_empty
  · exact readBase64_of_decode?_eq_none h

end Payload

namespace Event

section Undecodable

variable {e : Event} {b : Base64}

theorem fits_of_data (hdata : e.data = .binary b) :
    (Payload.binary b).fits e.contentType = true := by
  rw [← hdata]
  exact e.fits

/-- Bytes next to text are no trees. -/
theorem trees_of_binary (hdata : e.data = .binary b)
    (huser : ∀ u, e.metadata.user = some u → u.payload.IsText) : e.trees = [] := by
  refine List.eq_nil_iff_forall_not_mem.mpr (forall_trees.mpr (forall_payloads.mpr ⟨?_, ?_⟩))
  · rw [hdata]
    exact Payload.forall_mem_none
  · intro u hu
    obtain ⟨s, hs⟩ := (huser u hu).exists_text
    rw [hs]
    exact Payload.forall_mem_none

/-- The envelope has no bytes. -/
theorem toSerialized_undecodable (hdata : e.data = .binary b)
    (hfails : Base64.decode? b.text = none) : e.toSerialized = .error .base64 := by
  rw [toSerialized, hdata, Payload.toBytes_undecodable (fits_of_data hdata) hfails, error_bind]

/-- The envelope is written as JSON, and refused as what was written. -/
theorem ofJson_toJson_undecodable (hdata : e.data = .binary b)
    (hfails : Base64.decode? b.text = none)
    (huser : ∀ u, e.metadata.user = some u → u.payload.IsText) :
    ∃ v, e.toJson = .ok v ∧ Event.ofJson v = .error .base64 := by
  obtain ⟨v, hv⟩ : ∃ v, e.toJson = .ok v := by
    rw [exists_toJson_iff, trees_of_binary hdata huser]
    exact List.forall_mem_nil _
  have htext : ∀ u, e.metadata.user = some u →
      u.payload.XmlReads ∧ u.payload.decodes = true := by
    intro u hu
    obtain ⟨s, hs⟩ := (huser u hu).exists_text
    rw [hs]
    exact ⟨Payload.xmlReads_of_xmlLegible rfl, rfl⟩
  obtain ⟨data, hwritten, hread⟩ :=
    ofJson_toJson_eq (fun u hu => (htext u hu).1) (fun u hu => (htext u hu).2) hv
  rw [hdata] at hwritten
  refine ⟨v, hv, ?_⟩
  rw [hread, Payload.ofJson_undecodable (fits_of_data hdata) hfails hwritten, error_bind]

/-- The envelope is written as XML, and read as one of no bytes if its text is blank. -/
theorem ofXmlText_write_undecodable (hdata : e.data = .binary b)
    (hfails : Base64.decode? b.text = none)
    (hnames : ∀ name ∈ e.typeNames, Text.blankOnly name.toList = false)
    (huser : ∀ u, e.metadata.user = some u → u.payload.IsText) :
    ∃ s, e.toXml.write = .ok s ∧ ofXmlText s =
      if Text.blankOnly b.text.toList then ofParts e.id e.type (.ofBytes []) e.metadata
      else .error .base64 := by
  obtain ⟨s, hs⟩ : ∃ s, e.toXml.write = .ok s := by
    rw [exists_write_toXml_iff, trees_of_binary hdata huser]
    exact List.forall_mem_nil _
  have htext : ∀ u, e.metadata.user = some u → u.payload.jsonLegible = true ∧
      u.payload.xmlLegible = true ∧ u.payload.decodes = true := by
    intro u hu
    obtain ⟨t, ht⟩ := (huser u hu).exists_text
    rw [ht]
    exact ⟨rfl, rfl, rfl⟩
  have hlegible : e.toXml.legible = true := by
    refine legible_toXml (forall_payloads.mpr ⟨?_, fun u hu => (htext u hu).2.1⟩)
    rw [hdata]
    rfl
  have hmetadata : e.metadata.readBack = e.metadata :=
    Meta.readBack_eq_self fun u hu => (huser u hu).readBack_eq
  refine ⟨s, hs, ?_⟩
  rw [ofXmlText, Node.parse_write_of_legible hlegible hs]
  dsimp only
  rw [ofXml_norm_eq hnames (fun u hu => (htext u hu).1) (fun u hu => (htext u hu).2.2), hdata,
    Payload.ofXml_norm_undecodable (fits_of_data hdata) hfails, hmetadata]
  split
  · rfl
  · rfl

end Undecodable

/-- **Data whose base64 does not decode is never read as other data, unless its text is blank.**
The envelope has no bytes, and is refused as it was written in JSON, and in XML if the text is not
blank. A blank text is lost in XML, and the envelope is read as one of no bytes. -/
theorem undecodable {e : Event} {b : Base64} (hdata : e.data = .binary b)
    (hfails : Base64.decode? b.text = none)
    (hnames : ∀ name ∈ e.typeNames, Text.blankOnly name.toList = false)
    (huser : ∀ u, e.metadata.user = some u → u.payload.IsText) :
    e.toSerialized = .error .base64 ∧
    (∃ v, e.toJson = .ok v ∧ Event.ofJson v = .error .base64) ∧
    ∃ s, e.toXml.write = .ok s ∧
      (Text.blankOnly b.text.toList = false → ofXmlText s = .error .base64) ∧
      (Text.blankOnly b.text.toList = true → ∃ fits, ofXmlText s = .ok
        { id := e.id, type := e.type, data := .ofBytes [], metadata := e.metadata, fits }) := by
  obtain ⟨s, hs, hread⟩ := ofXmlText_write_undecodable hdata hfails hnames huser
  have hjson := ofJson_toJson_undecodable hdata hfails huser
  refine ⟨toSerialized_undecodable hdata hfails, hjson, s, hs, fun hblank => ?_, fun hblank => ?_⟩
  · rw [hread, hblank]
    rfl
  · -- All bytes are of one kind, so what fits one payload of bytes fits another.
    have hfits : (Payload.ofBytes []).fits e.metadata.contentType = true :=
      fits_of_data (b := b) hdata
    refine ⟨hfits, ?_⟩
    rw [hread, hblank, if_pos rfl, ofParts, dif_pos hfits]

/-- A scan as a base64 text, with a note on who made it. -/
def rawScan (text : String) : Event where
  id := scan.id
  type := scan.type
  data := .binary (.ofText text)
  metadata := {
    dataType := scan.metadata.dataType
    contentType := .octetStream
    user := some {
      type := Bookshop.note
      contentType := .plainText .utf8
      payload := .text "by hand"
      fits := by decide +kernel
      admitted := by decide +kernel } }
  fits := decide_eq_true Payload.ofMediaType_octetStream

theorem isText_of_rawScan (text : String) :
    ∀ u, (rawScan text).metadata.user = some u → u.payload.IsText := by
  intro u hu
  cases hu
  rfl

/-- A scan whose text ends in the middle of a group of four is refused everywhere. -/
theorem undecodable_rawScan :
    (rawScan "/wA").toSerialized = .error .base64 ∧
      (∃ v, (rawScan "/wA").toJson = .ok v ∧ Event.ofJson v = .error .base64) ∧
      ∃ s, (rawScan "/wA").toXml.write = .ok s ∧ ofXmlText s = .error .base64 := by
  obtain ⟨hbytes, hjson, s, hs, hxml, -⟩ := undecodable (e := rawScan "/wA") rfl
    (by decide +kernel) (by decide +kernel) (isText_of_rawScan _)
  exact ⟨hbytes, hjson, s, hs, hxml (by decide)⟩

/-- A scan of a space has no bytes and is refused in JSON, but is read from XML as one of no
bytes. -/
theorem ofXmlText_write_rawScan_space :
    (rawScan " ").toSerialized = .error .base64 ∧
      ∃ s e, (rawScan " ").toXml.write = .ok s ∧ ofXmlText s = .ok e ∧ e.data = .ofBytes [] := by
  have hfails : Base64.decode? " " = none := by decide +kernel
  obtain ⟨s, hs, hread⟩ := ofXmlText_write_undecodable (e := rawScan " ") rfl hfails
    (by decide +kernel) (isText_of_rawScan _)
  refine ⟨toSerialized_undecodable rfl hfails, s, _, hs, hread, rfl⟩

end Event

end EventWire

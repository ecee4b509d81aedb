import EventWire.Bookshop
import EventWire.Proofs.Envelope.Xml
import EventWire.Proofs.Xml.Written

/-!
# Names of types in XML envelopes

Any name can be written into an XML envelope: control characters, which XML could not
hold, are in none. But a field that is blank is dropped when the envelope is read, and a
name may be blank. So an envelope of texts is always written (`exists_write`), and what is
read is the same envelope if no name in it is blank; otherwise the first blank name is
found missing (`ofXml_norm_of_blank`). `ofXmlText_write` is the result.
-/

namespace EventWire

open Xml (Node)

/-! ## Envelopes of texts -/

namespace Payload

/-- A payload that is a text. -/
def IsText (p : Payload) : Prop :=
  p.kind = .text

variable {p : Payload}

theorem IsText.exists_text (h : p.IsText) : ∃ s, p = .text s := by
  unfold IsText at h
  cases p with
  | text s => exact ⟨s, rfl⟩
  | json v => cases h
  | xml n => cases h
  | binary b => cases h

/-- A text is read back as it is. -/
theorem IsText.readBack_eq (h : p.IsText) : p.readBack = p := by
  obtain ⟨s, rfl⟩ := h.exists_text
  rfl

end Payload

namespace Event

variable {e : Event}

/-- An envelope of texts is read back as it is. -/
theorem readBack_of_isText (h : ∀ p ∈ e.payloads, p.IsText) : e.readBack = e :=
  readBack_eq_self_iff.mpr fun p hp => (h p hp).readBack_eq

/-- **An envelope of texts can be written.** -/
theorem exists_write (h : ∀ p ∈ e.payloads, p.IsText) : ∃ s, e.toXml.write = .ok s := by
  have hnames : e.toXml.every Xml.validName = true := by
    refine every_toXml (by decide +kernel) fun p hp => ?_
    obtain ⟨s, rfl⟩ := (h p hp).exists_text
    rfl
  exact exists_ok_of_isOk ((Xml.isOk_writeDocument e.toXml none).trans hnames)

end Event

/-! ## Blank names -/

/-- A blank field says nothing. -/
theorem Meta.text_norm_textElement_of_blank (name : String) {s : String}
    (h : Text.blankOnly s.toList = true) : (textElement name s).norm.text = "" := by
  rw [textElement, Node.text_norm_withText_eq, if_pos h]

/-- **A blank type of data or metadata is found missing.** -/
theorem Meta.ofXml_norm_of_blank {m : Meta}
    (h : Text.blankOnly m.dataType.text.toList = true ∨
      ∃ u, m.user = some u ∧ Text.blankOnly u.type.text.toList = true) :
    Meta.ofXml m.toXml.norm = .error (.id (.empty .dataType)) := by
  rw [toXml_eq_ofElements, Node.norm_ofElements, ofXml]
  cases hdata : Text.blankOnly m.dataType.text.toList with
  | true =>
    rw [requiredText_ofElements rfl (text_norm_textElement_of_blank dataTypeKey hdata), ok_bind]
    rfl
  | false =>
    have htype := text_norm_textElement dataTypeKey hdata
    have hcontent := text_norm_textElement dataContentTypeKey m.contentType.not_blankOnly_print
    rcases h with hblank | ⟨u, huser, hblank⟩
    · rw [hdata] at hblank
      cases hblank
    · have hread : readUser (Node.ofElements metadataField
          ((typeFields m.dataType m.contentType ++ userFields u).map Node.norm))
          = .error (.id (.empty .dataType)) := by
        rw [readUser, child?_metaType]
        dsimp only
        rw [text_norm_textElement_of_blank metaTypeKey hblank]
        rfl
      rw [huser, Option.map_some, Option.getD_some, requiredText_ofElements rfl htype, ok_bind,
        readType_text, ok_bind, requiredText_ofElements rfl hcontent, ok_bind,
        readContentType_print, ok_bind, hread]
      rfl

namespace Event

/-- The first blank name of an envelope is found missing. -/
theorem ofXml_norm_of_blank {e : Event}
    (h : ∃ name ∈ e.typeNames, Text.blankOnly name.toList = true) :
    Event.ofXml e.toXml.norm = .error (.id (.empty
      (if Text.blankOnly e.type.text.toList then .eventType else .dataType))) := by
  have hid := Meta.text_norm_textElement idField e.id.not_blankOnly_text
  rw [toXml_eq_ofElements, Node.norm_ofElements, ofXml]
  have hname : expectElement (Node.ofElements element (e.fields.map Node.norm)) element = .ok () :=
    rfl
  rw [hname, ok_bind, requiredChild_ofElements rfl, ok_bind, hid, readId_text, ok_bind,
    requiredChild_ofElements rfl, ok_bind]
  cases htype : Text.blankOnly e.type.text.toList with
  | true =>
    rw [Meta.text_norm_textElement_of_blank typeField htype]
    rfl
  | false =>
    have hmeta : Text.blankOnly e.metadata.dataType.text.toList = true ∨
        ∃ u, e.metadata.user = some u ∧ Text.blankOnly u.type.text.toList = true := by
      obtain ⟨name, hmem, hblank⟩ := h
      rcases List.mem_cons.mp hmem with rfl | hmem
      · rw [htype] at hblank
        cases hblank
      rcases List.mem_cons.mp hmem with rfl | hmem
      · exact Or.inl hblank
      · obtain ⟨u, hu, rfl⟩ := Option.map_eq_some_iff.mp (Option.mem_toList.mp hmem)
        exact Or.inr ⟨u, hu, hblank⟩
    rw [Meta.text_norm_textElement typeField htype, readEventType_text, ok_bind,
      requiredChild_ofElements e.find?_metadata, ok_bind, Meta.ofXml_norm_of_blank hmeta]
    rfl

/-- What is read from an envelope of texts is read from its normal form. -/
theorem ofXmlText_eq {e : Event} {s : String} (h : ∀ p ∈ e.payloads, p.IsText)
    (hwrite : e.toXml.write = .ok s) : ofXmlText s = Event.ofXml e.toXml.norm := by
  have hlegible : e.toXml.legible = true := legible_toXml fun p hp => by
    obtain ⟨t, rfl⟩ := (h p hp).exists_text
    rfl
  rw [ofXmlText, Node.parse_write_of_legible hlegible hwrite]

/-- **An envelope of texts comes back from XML exactly if no name in it is blank**: the
first that is has become an empty one, which is no name. -/
theorem ofXmlText_write {e : Event} (h : ∀ p ∈ e.payloads, p.IsText) :
    ∃ s, e.toXml.write = .ok s ∧
      ((∀ name ∈ e.typeNames, Text.blankOnly name.toList = false) → ofXmlText s = .ok e) ∧
      ((∃ name ∈ e.typeNames, Text.blankOnly name.toList = true) →
        ofXmlText s = .error (.id (.empty
          (if Text.blankOnly e.type.text.toList then .eventType else .dataType)))) := by
  obtain ⟨s, hs⟩ := exists_write h
  refine ⟨s, hs, fun hnames => ?_, fun hblank => ?_⟩
  · have hlegible (p : Payload) (hp : p ∈ e.payloads) :
        p.jsonLegible = true ∧ p.decodes = true := by
      obtain ⟨t, rfl⟩ := (h p hp).exists_text
      exact ⟨rfl, rfl⟩
    have hread := ofXml_norm hnames (fun p hp => (hlegible p hp).1) fun p hp => (hlegible p hp).2
    rw [ofXmlText_eq h hs, hread, readBack_of_isText h]
  · rw [ofXmlText_eq h hs, ofXml_norm_of_blank hblank]

/-- A greeting as text; its type is to be named. -/
def greeting (type : EventType) : Event where
  id := .greatest
  type := type
  data := .text "hi"
  metadata := { dataType := Bookshop.note, contentType := .plainText .utf8, user := none }
  fits := by decide +kernel

/-- A greeting of a named type comes back. -/
theorem ofXmlText_write_greeting :
    ∃ s, (greeting (Bookshop.note.retag .eventType)).toXml.write = .ok s ∧
      ofXmlText s = .ok (greeting (Bookshop.note.retag .eventType)) := by
  have htext : ∀ p ∈ (greeting (Bookshop.note.retag .eventType)).payloads, p.IsText := by
    intro p hp
    obtain rfl := List.mem_singleton.mp hp
    rfl
  obtain ⟨s, hs, hback, -⟩ := ofXmlText_write htext
  exact ⟨s, hs, hback (by decide +kernel)⟩

/-- A space makes a name, too. -/
def spaceType : EventType := ⟨" ", by decide +kernel⟩

/-- A greeting of a type that is called like a space is written, but cannot be read. -/
theorem ofXmlText_write_space :
    Name.ofText .eventType " " = .ok spaceType ∧
      ∃ s, (greeting spaceType).toXml.write = .ok s ∧
        ofXmlText s = .error (.id (.empty .eventType)) := by
  have htext : ∀ p ∈ (greeting spaceType).payloads, p.IsText := by
    intro p hp
    obtain rfl := List.mem_singleton.mp hp
    rfl
  have hblank : ∃ name ∈ (greeting spaceType).typeNames, Text.blankOnly name.toList = true :=
    ⟨" ", List.mem_cons_self .., by decide⟩
  obtain ⟨s, hs⟩ := exists_write htext
  refine ⟨Name.ofText_text spaceType, s, hs, ?_⟩
  rw [ofXmlText_eq htext hs, ofXml_norm_of_blank hblank]
  rfl

end Event

end EventWire

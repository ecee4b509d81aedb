import EventWire.Proofs.Blank
import EventWire.Proofs.Envelope.ReadBack
import EventWire.Proofs.Xml.Elements

/-!
# Envelopes in XML

An envelope is an element of elements, so its normal form is one of their normal
forms, in which every field is found where it was. Names come back because they are
not blank, base64 because no blank text but the empty one decodes, and JSON and text
because CDATA is never dropped. `xml_roundTrip` is the result for envelopes and for
lists of them.
-/

namespace EventWire

open Xml (Node Content)

/-! ## Payloads -/

theorem Payload.toContent_ne_text (p : Payload) (s : String) : p.toContent ≠ .text s := by
  cases p with
  | json v => exact Content.noConfusion
  | xml n => exact Content.noConfusion
  | text t => exact Content.noConfusion
  | binary b => exact Content.noConfusion

/-- Bytes are read from what is left of their base64 text. -/
theorem Payload.ofXml_norm_binary {b : Base64} {m : MediaType}
    (hkind : PayloadKind.ofMediaType m = .binary) (name field : String) :
    Payload.ofXml ((Node.named name).push (Payload.binary b).toContent).norm m field
      = readBase64 ((Node.named base64Tag).withText b.text).norm.text := by
  rw [Node.norm_push _ (toContent_ne_text _), ofXml, hkind, toContent, ← Node.norm_toContent]
  rfl

/-- **A payload is read back from the normal form of the element around it.** -/
theorem Payload.ofXml_norm {p : Payload} {m : MediaType} (hfits : p.fits m = true)
    (hjson : p.jsonLegible = true) (hdecodes : p.decodes = true) (name field : String) :
    Payload.ofXml ((Node.named name).push p.toContent).norm m field = .ok p.readBack := by
  have hkind := kind_of_fits hfits
  cases p with
  | json v =>
    have htext : ((Node.named name).push (.cdata v.print)).text = v.print := String.empty_append
    rw [Node.norm_push _ (toContent_ne_text _), ofXml, hkind]
    show ofText .json ((Node.named name).push (.cdata v.print)).text = _
    rw [htext, ofText, Json.parse?_print_of_legible hjson]
    rfl
  | xml n =>
    rw [Node.norm_push _ (toContent_ne_text _), ofXml, hkind, toContent, ← Node.norm_toContent]
    rfl
  | text s =>
    have htext : ((Node.named name).push (.cdata s)).text = s := String.empty_append
    rw [Node.norm_push _ (toContent_ne_text _), ofXml, hkind]
    show Except.ok (Payload.text ((Node.named name).push (.cdata s)).text) = _
    rw [htext]
    rfl
  | binary b =>
    have htext : ((Node.named base64Tag).withText b.text).norm.text = b.text := by
      obtain ⟨bs, hbs⟩ := Option.isSome_iff_exists.mp hdecodes
      exact Node.text_norm_withText (Base64.eq_empty_of_blankOnly hbs)
    rw [ofXml_norm_binary hkind, htext, readBase64_text hdecodes]
    rfl

/-! ## Fields -/

theorem EventId.not_blankOnly_text (id : EventId) : Text.blankOnly id.text.toList = false := by
  rw [text, String.toList_ofList, hyphenate]
  exact Text.not_blankOnly_of_mem (c := '-') (by simp) (by decide)

theorem MediaType.not_blankOnly_print (m : MediaType) : Text.blankOnly m.print.toList = false := by
  rw [print, String.toList_ofList, base_toList]
  exact Text.not_blankOnly_of_mem (c := '/') (by simp) (by decide)

namespace Meta

/-- A field gives back any text that is not blank. -/
theorem text_norm_textElement (name : String) {s : String} (h : Text.blankOnly s.toList = false) :
    (textElement name s).norm.text = s :=
  Node.text_norm_withText fun hblank => absurd (h.symm.trans hblank) Bool.false_ne_true

/-- The fields with the types. -/
def typeFields (dataType : DataType) (contentType : MediaType) : List Node :=
  [textElement dataTypeKey dataType.text, textElement dataContentTypeKey contentType.print]

/-- The fields with the metadata. -/
def userFields (u : UserMeta) : List Node :=
  [textElement metaTypeKey u.type.text, textElement metaContentTypeKey u.contentType.print,
    (Node.named metaPayloadKey).push u.payload.toContent]

/-- The part is an element of its fields. -/
theorem toXml_eq_ofElements (m : Meta) :
    m.toXml = Node.ofElements metadataField
      (typeFields m.dataType m.contentType ++ (m.user.map userFields).getD []) := by
  unfold toXml
  cases m.user with
  | none => rfl
  | some u => rfl

theorem requiredText_ofElements {name key s : String} {ns : List Node} {n : Node}
    (h : ns.find? (fun e => e.name = key) = some n) (htext : n.text = s) :
    requiredText (Node.ofElements name ns) key = .ok s := by
  rw [requiredText, Node.child?_ofElements, h]
  dsimp only
  rw [htext]

/-- The type of the metadata is found behind the fields with the types of the data. -/
theorem child?_metaType (m : Meta) (u : UserMeta) :
    (Node.ofElements metadataField
      ((typeFields m.dataType m.contentType ++ userFields u).map Node.norm)).child? metaTypeKey
      = some (textElement metaTypeKey u.type.text).norm := by
  rw [Node.child?_ofElements]
  rfl

/-- **The part is read back from its normal form.** -/
theorem ofXml_norm {m : Meta} (hdata : Text.blankOnly m.dataType.text.toList = false)
    (hname : ∀ u, m.user = some u → Text.blankOnly u.type.text.toList = false)
    (hjson : ∀ u, m.user = some u → u.payload.jsonLegible = true)
    (hdecodes : ∀ u, m.user = some u → u.payload.decodes = true) :
    Meta.ofXml m.toXml.norm = .ok m.readBack := by
  have htype := text_norm_textElement dataTypeKey hdata
  have hcontent := text_norm_textElement dataContentTypeKey m.contentType.not_blankOnly_print
  rw [toXml_eq_ofElements, Node.norm_ofElements, ofXml]
  cases huser : m.user with
  | none =>
    rw [Option.map_none, Option.getD_none, List.append_nil, typeFields, List.map_cons,
      List.map_cons, List.map_nil]
    rw [requiredText_ofElements rfl htype, ok_bind, readType_text, ok_bind,
      requiredText_ofElements rfl hcontent, ok_bind, readContentType_print, ok_bind, readUser,
      Node.child?_ofElements, readBack_of_none huser]
    rfl
  | some u =>
    have huserType := text_norm_textElement metaTypeKey (hname u huser)
    have huserContent := text_norm_textElement metaContentTypeKey
      u.contentType.not_blankOnly_print
    have hpayload := Payload.ofXml_norm u.fits (hjson u huser) (hdecodes u huser) metaPayloadKey
      metaPayloadKey
    have hread : readUser (Node.ofElements metadataField
        ((typeFields m.dataType m.contentType ++ userFields u).map Node.norm))
        = .ok (some u.readBack) := by
      have hcontainer : (Node.ofElements metadataField
          ((typeFields m.dataType m.contentType ++ userFields u).map Node.norm)).child?
            metaPayloadKey
          = some ((Node.named metaPayloadKey).push u.payload.toContent).norm := by
        rw [Node.child?_ofElements]
        rfl
      rw [readUser, child?_metaType]
      dsimp only
      rw [huserType, readType_text, ok_bind, requiredText_ofElements rfl huserContent, ok_bind,
        readContentType_print, ok_bind, hcontainer]
      dsimp only
      rw [hpayload, ok_bind, UserMeta.ofParts_readBack]
      rfl
    rw [Option.map_some, Option.getD_some, requiredText_ofElements rfl htype, ok_bind,
      readType_text, ok_bind, requiredText_ofElements rfl hcontent, ok_bind,
      readContentType_print, ok_bind, hread, readBack_of_some huser]
    rfl

end Meta

/-! ## Envelopes -/

namespace Event

/-- The fields of an envelope. -/
def fields (e : Event) : List Node :=
  [Meta.textElement idField e.id.text, Meta.textElement typeField e.type.text,
    (Node.named dataField).push e.data.toContent, e.metadata.toXml]

/-- An envelope is an element of its fields. -/
theorem toXml_eq_ofElements (e : Event) : e.toXml = Node.ofElements element e.fields := rfl

theorem requiredChild_ofElements {name key : String} {ns : List Node} {n : Node}
    (h : ns.find? (fun e => e.name = key) = some n) :
    requiredChild (Node.ofElements name ns) key = .ok n := by
  rw [requiredChild, Node.child?_ofElements, h]

theorem find?_metadata (e : Event) :
    (e.fields.map Node.norm).find? (fun n => n.name = metadataField)
      = some e.metadata.toXml.norm := by
  rw [fields, Meta.toXml_eq_ofElements]
  rfl

/-- All but the data is read back from the normal form of an envelope: it is left to read the
data by its content type, and to put the parts together. -/
theorem ofXml_norm_eq {e : Event} (hnames : ∀ s ∈ e.typeNames, Text.blankOnly s.toList = false)
    (hjson : ∀ u, e.metadata.user = some u → u.payload.jsonLegible = true)
    (hdecodes : ∀ u, e.metadata.user = some u → u.payload.decodes = true) :
    Event.ofXml e.toXml.norm = (do
      let data ← Payload.ofXml ((Node.named dataField).push e.data.toContent).norm e.contentType
        dataField
      ofParts e.id e.type data e.metadata.readBack) := by
  have hid := Meta.text_norm_textElement idField e.id.not_blankOnly_text
  have htype := Meta.text_norm_textElement typeField (hnames _ e.type_mem_typeNames)
  have hmeta := Meta.ofXml_norm (hnames _ e.dataType_mem_typeNames)
    (fun u hu => hnames _ (user_mem_typeNames hu)) hjson hdecodes
  rw [toXml_eq_ofElements, Node.norm_ofElements, ofXml]
  have hname : expectElement (Node.ofElements element (e.fields.map Node.norm)) element = .ok () :=
    rfl
  -- One field after the other: id, type, metadata, and the element of the data.
  rw [hname, ok_bind, requiredChild_ofElements rfl, ok_bind, hid, readId_text, ok_bind,
    requiredChild_ofElements rfl, ok_bind, htype, readEventType_text, ok_bind,
    requiredChild_ofElements e.find?_metadata, ok_bind, hmeta, ok_bind,
    requiredChild_ofElements rfl, ok_bind]
  rfl

/-- **An envelope is read back from its normal form.** -/
theorem ofXml_norm {e : Event} (hnames : ∀ s ∈ e.typeNames, Text.blankOnly s.toList = false)
    (hjson : ∀ p ∈ e.payloads, p.jsonLegible = true)
    (hdecodes : ∀ p ∈ e.payloads, p.decodes = true) :
    Event.ofXml e.toXml.norm = .ok e.readBack := by
  have hdata := Payload.ofXml_norm e.fits (hjson _ e.data_mem_payloads)
    (hdecodes _ e.data_mem_payloads) dataField dataField
  rw [ofXml_norm_eq hnames (fun u hu => hjson _ (user_mem_payloads hu))
    fun u hu => hdecodes _ (user_mem_payloads hu), contentType, hdata, ok_bind, ofParts_readBack]

/-- The names of the elements around the payloads of an envelope. -/
def tagNames : List String :=
  [element, idField, typeField, dataField, metadataField, dataTypeKey, dataContentTypeKey,
    metaTypeKey, metaContentTypeKey, metaPayloadKey]

/-- Every tag of an envelope passes if those of its own do, without attributes, and those in
its payloads. -/
theorem every_toXml {q : Xml.TagTest} (hbare : ∀ name ∈ tagNames, q name [] = true) {e : Event}
    (h : ∀ p ∈ e.payloads, p.toContent.every q = true) : e.toXml.every q = true := by
  have hpush : ∀ {name} {c : Content}, name ∈ tagNames → c.every q = true →
      ((Node.named name).push c).every q = true := fun hname hc =>
    Node.every_push.mpr ⟨Node.every_named (hbare _ hname), hc⟩
  have htext : ∀ name s, name ∈ tagNames → (Meta.textElement name s).every q = true :=
    fun name s hname => hpush hname rfl
  have hmeta : e.metadata.toXml.every q = true := by
    rw [Meta.toXml_eq_ofElements]
    refine Node.every_ofElements (hbare _ (by simp [tagNames])) fun n hn => ?_
    rcases List.mem_append.mp hn with hn | hn
    · simp only [Meta.typeFields, List.mem_cons, List.not_mem_nil, or_false] at hn
      rcases hn with rfl | rfl
      · exact htext _ _ (by simp [tagNames])
      · exact htext _ _ (by simp [tagNames])
    · cases huser : e.metadata.user with
      | none => rw [huser] at hn; cases hn
      | some u =>
        rw [huser, Option.map_some, Option.getD_some, Meta.userFields] at hn
        simp only [List.mem_cons, List.not_mem_nil, or_false] at hn
        rcases hn with rfl | rfl | rfl
        · exact htext _ _ (by simp [tagNames])
        · exact htext _ _ (by simp [tagNames])
        · exact hpush (by simp [tagNames]) (h _ (user_mem_payloads huser))
  rw [toXml_eq_ofElements]
  refine Node.every_ofElements (hbare _ (by simp [tagNames])) fun n hn => ?_
  simp only [fields, List.mem_cons, List.not_mem_nil, or_false] at hn
  rcases hn with rfl | rfl | rfl | rfl
  · exact htext _ _ (by simp [tagNames])
  · exact htext _ _ (by simp [tagNames])
  · exact hpush (by simp [tagNames]) (h _ e.data_mem_payloads)
  · exact hmeta

end Event

theorem Payload.every_toContent {p : Payload} (h : p.xmlLegible = true) :
    p.toContent.every Xml.validAttributes = true ∧
      p.toContent.every Xml.distinctAttributes = true := by
  cases p with
  | json v => exact ⟨rfl, rfl⟩
  | xml n =>
    rw [xmlLegible, Xml.Node.legible, Bool.and_eq_true] at h
    exact h
  | text s => exact ⟨rfl, rfl⟩
  | binary b => exact ⟨rfl, rfl⟩

/-- **An envelope is legible when its payloads are.** -/
theorem Event.legible_toXml {e : Event} (h : ∀ p ∈ e.payloads, p.xmlLegible = true) :
    e.toXml.legible = true := by
  rw [Xml.Node.legible, Bool.and_eq_true]
  exact ⟨every_toXml (fun _ _ => rfl) fun p hp => (Payload.every_toContent (h p hp)).1,
    every_toXml (fun _ _ => rfl) fun p hp => (Payload.every_toContent (h p hp)).2⟩

namespace Events

theorem foldl_withChild (name : String) (es : Events) : ∀ ns : List Node,
    es.foldl (fun n e => n.withChild e.toXml) (Node.ofElements name ns)
      = Node.ofElements name (ns ++ es.map Event.toXml) := by
  induction es with
  | nil => intro ns; rw [List.foldl_nil, List.map_nil, List.append_nil]
  | cons e rest ih =>
    intro ns
    have hstep : (Node.ofElements name ns).withChild e.toXml
        = Node.ofElements name (ns ++ [e.toXml]) := by
      rw [Node.withChild, Node.push, Node.ofElements, Node.ofElements, List.map_append]
      rfl
    rw [List.foldl_cons, hstep, ih, List.append_assoc]
    rfl

theorem toXml_eq_ofElements (es : Events) :
    Events.toXml es = Node.ofElements element (es.map Event.toXml) :=
  foldl_withChild element es []

/-- **Envelopes are read back from XML**, one by one and as a list in its order, when the
names of their types are not blank. -/
theorem xml_roundTrip :
    (∀ (e : Event) (s : String), (∀ name ∈ e.typeNames, Text.blankOnly name.toList = false) →
      (∀ p ∈ e.payloads, p.jsonLegible = true ∧ p.xmlLegible = true ∧ p.decodes = true) →
      e.toXml.write = .ok s → Event.ofXmlText s = .ok e.readBack) ∧
    (∀ (es : Events) (s : String),
      (∀ e ∈ es, ∀ name ∈ e.typeNames, Text.blankOnly name.toList = false) →
      (∀ e ∈ es, ∀ p ∈ e.payloads,
        p.jsonLegible = true ∧ p.xmlLegible = true ∧ p.decodes = true) →
      (Events.toXml es).write = .ok s →
      ∃ n, Node.parse s = .ok n ∧ Events.ofXml n = .ok (es.map Event.readBack)) := by
  have hread : ∀ (e : Event), (∀ name ∈ e.typeNames, Text.blankOnly name.toList = false) →
      (∀ p ∈ e.payloads, p.jsonLegible = true ∧ p.xmlLegible = true ∧ p.decodes = true) →
      Event.ofXml e.toXml.norm = .ok e.readBack := fun e hnames h =>
    Event.ofXml_norm hnames (fun p hp => (h p hp).1) fun p hp => (h p hp).2.2
  refine ⟨fun e s hnames h hwrite => ?_, fun es s hnames h hwrite => ?_⟩
  · have hlegible := Event.legible_toXml fun p hp => (h p hp).2.1
    rw [Event.ofXmlText, Node.parse_write_of_legible hlegible hwrite]
    exact hread e hnames h
  · have hlegible : (Events.toXml es).legible = true := by
      have hall : ∀ n ∈ es.map Event.toXml, n.every Xml.validAttributes = true ∧
          n.every Xml.distinctAttributes = true := by
        intro n hn
        obtain ⟨e, he, rfl⟩ := List.mem_map.mp hn
        have helegible := Event.legible_toXml fun p hp => (h e he p hp).2.1
        rw [Node.legible, Bool.and_eq_true] at helegible
        exact helegible
      rw [toXml_eq_ofElements, Node.legible, Bool.and_eq_true]
      exact ⟨Node.every_ofElements rfl fun n hn => (hall n hn).1,
        Node.every_ofElements rfl fun n hn => (hall n hn).2⟩
    refine ⟨_, Node.parse_write_of_legible hlegible hwrite, ?_⟩
    have hname : Event.expectElement (Events.toXml es).norm element = .ok () := by
      rw [toXml_eq_ofElements]
      rfl
    rw [Events.ofXml, hname, ok_bind, toXml_eq_ofElements, Node.norm_ofElements,
      Node.elements_ofElements, List.map_map]
    exact mapM_map_eq_ok fun e he => hread e (hnames e he) (h e he)

/-- An order and a scan come back from XML, alone and together. -/
theorem xml_roundTrip_order_scan :
    (∃ s, Event.order.toXml.write = .ok s ∧ Event.ofXmlText s = .ok Event.order.readBack) ∧
    (∃ s n, (Events.toXml [.order, .scan]).write = .ok s ∧ Node.parse s = .ok n ∧
      Events.ofXml n = .ok [Event.order.readBack, Event.scan.readBack]) := by
  obtain ⟨hone, hall⟩ := xml_roundTrip
  refine ⟨?_, ?_⟩
  · obtain ⟨s, hs⟩ : ∃ s, Event.order.toXml.write = .ok s := exists_ok_of_isOk (by decide +kernel)
    exact ⟨s, hs, hone .order s (by decide +kernel) (by decide +kernel) hs⟩
  · obtain ⟨s, hs⟩ : ∃ s, (Events.toXml [.order, .scan]).write = .ok s :=
      exists_ok_of_isOk (by decide +kernel)
    obtain ⟨n, hn, hread⟩ := hall [.order, .scan] s (by decide +kernel) (by decide +kernel) hs
    exact ⟨s, n, hs, hn, hread⟩

end Events

end EventWire

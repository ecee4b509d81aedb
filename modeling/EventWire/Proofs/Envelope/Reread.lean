import EventWire.Proofs.Envelope.Json
import EventWire.Proofs.Envelope.Names
import EventWire.Proofs.Payload.AsRead

/-!
# Envelopes that are read, written and read again

Readers take XML in payloads that nobody would build: elements whose names are no names,
texts with a comment between them, attributes with quotes in their names. An envelope that is
read is written if its elements have valid names (`exists_toJson_iff`,
`exists_write_toXml_iff`), and is read again with neighbouring texts joined.

What comes back has left no quote open (`closedQuotes_of_ofJson_toJson`) and has no blank name
(`not_blank_of_ofXmlText_write`). So it can be said exactly when an envelope comes back as what
it was (`reread`).
-/

namespace EventWire

open Xml (Node TagTest)

/-! ## Readers of envelopes -/

namespace Meta

theorem asRead_readPayload {v : Json} {t : DataType} {m : MediaType} {p : Payload}
    (h : readPayload v t m = .ok p) : p.AsRead fun _ => True := by
  unfold readPayload at h
  split at h
  · split at h
    · obtain ⟨s, -, hread⟩ := bind_eq_ok.mp h
      exact Payload.asRead_readBase64 hread
    · cases h
  · split at h
    · exact Payload.asRead_ofJson h
    · cases h

theorem asRead_ofJson {v : Json} {m : Meta} (h : Meta.ofJson v = .ok m) :
    ∀ u, m.user = some u → u.payload.AsRead fun _ => True := by
  obtain ⟨s, -, hrest⟩ := bind_eq_ok.mp h
  cases huser : s.user with
  | none =>
    rw [huser] at hrest
    cases hrest
    rintro u ⟨⟩
  | some types =>
    obtain ⟨t, c⟩ := types
    rw [huser] at hrest
    obtain ⟨payload, hpayload, hparts⟩ := bind_eq_ok.mp hrest
    obtain ⟨u, hu, hdone⟩ := bind_eq_ok.mp hparts
    obtain ⟨hfits, hadmitted, rfl⟩ := UserMeta.ofParts_eq_ok hu
    cases hdone
    rintro u ⟨⟩
    exact asRead_readPayload hpayload

theorem asRead_readUser {n : Node} (hn : n.AsRead) {user : Option UserMeta}
    (h : readUser n = .ok user) :
    ∀ u, user = some u → u.payload.AsRead (Json.Bounded Json.maxDepth) := by
  unfold readUser at h
  split at h
  · cases h
    rintro u ⟨⟩
  · obtain ⟨t, -, h⟩ := bind_eq_ok.mp h
    obtain ⟨print, -, h⟩ := bind_eq_ok.mp h
    obtain ⟨m, -, h⟩ := bind_eq_ok.mp h
    split at h
    · cases h
    · next container hcontainer =>
      obtain ⟨payload, hpayload, hparts⟩ := bind_eq_ok.mp h
      obtain ⟨u, hu, hdone⟩ := bind_eq_ok.mp hparts
      obtain ⟨hfits, hadmitted, rfl⟩ := UserMeta.ofParts_eq_ok hu
      cases hdone
      rintro u ⟨⟩
      have hread := hn.of_mem_elements (List.mem_of_find?_eq_some hcontainer)
      exact Payload.asRead_ofXml hread hpayload

theorem asRead_ofXml {n : Node} (hn : n.AsRead) {m : Meta} (h : Meta.ofXml n = .ok m) :
    ∀ u, m.user = some u → u.payload.AsRead (Json.Bounded Json.maxDepth) := by
  obtain ⟨dataType, -, h⟩ := bind_eq_ok.mp h
  obtain ⟨t, -, h⟩ := bind_eq_ok.mp h
  obtain ⟨print, -, h⟩ := bind_eq_ok.mp h
  obtain ⟨contentType, -, h⟩ := bind_eq_ok.mp h
  obtain ⟨user, huser, hdone⟩ := bind_eq_ok.mp h
  cases hdone
  exact asRead_readUser hn huser

end Meta

namespace Event

/-- The data and the metadata of an envelope are read from members of the JSON. -/
theorem ofJson_eq_ok {v : Json} {e : Event} (h : Event.ofJson v = .ok e) :
    (∃ data, Payload.ofJson data e.metadata.contentType dataField = .ok e.data) ∧
      ∃ metadata, Meta.ofJson metadata = .ok e.metadata := by
  obtain ⟨idMember, -, h⟩ := bind_eq_ok.mp h
  obtain ⟨idText, -, h⟩ := bind_eq_ok.mp h
  obtain ⟨id, -, h⟩ := bind_eq_ok.mp h
  obtain ⟨typeMember, -, h⟩ := bind_eq_ok.mp h
  obtain ⟨typeText, -, h⟩ := bind_eq_ok.mp h
  obtain ⟨type, -, h⟩ := bind_eq_ok.mp h
  obtain ⟨metadataMember, -, h⟩ := bind_eq_ok.mp h
  obtain ⟨metadata, hmetadata, h⟩ := bind_eq_ok.mp h
  obtain ⟨dataMember, -, h⟩ := bind_eq_ok.mp h
  obtain ⟨data, hdata, h⟩ := bind_eq_ok.mp h
  obtain ⟨hfits, rfl⟩ := ofParts_eq_ok h
  exact ⟨⟨dataMember, hdata⟩, metadataMember, hmetadata⟩

theorem mem_elements_of_requiredChild {n m : Node} {field : String}
    (h : requiredChild n field = .ok m) : m ∈ n.elements := by
  unfold requiredChild at h
  split at h
  · next found hfound =>
    cases h
    exact List.mem_of_find?_eq_some hfound
  · cases h

/-- The data and the metadata of an envelope are read from elements in its own. -/
theorem ofXml_eq_ok {n : Node} {e : Event} (h : Event.ofXml n = .ok e) :
    (∃ data ∈ n.elements, Payload.ofXml data e.metadata.contentType dataField = .ok e.data) ∧
      ∃ metadata ∈ n.elements, Meta.ofXml metadata = .ok e.metadata := by
  obtain ⟨_, -, h⟩ := bind_eq_ok.mp h
  obtain ⟨idChild, -, h⟩ := bind_eq_ok.mp h
  obtain ⟨id, -, h⟩ := bind_eq_ok.mp h
  obtain ⟨typeChild, -, h⟩ := bind_eq_ok.mp h
  obtain ⟨type, -, h⟩ := bind_eq_ok.mp h
  obtain ⟨metadataChild, hmetadataChild, h⟩ := bind_eq_ok.mp h
  obtain ⟨metadata, hmetadata, h⟩ := bind_eq_ok.mp h
  obtain ⟨dataChild, hdataChild, h⟩ := bind_eq_ok.mp h
  obtain ⟨data, hdata, h⟩ := bind_eq_ok.mp h
  obtain ⟨hfits, rfl⟩ := ofParts_eq_ok h
  exact ⟨⟨dataChild, mem_elements_of_requiredChild hdataChild, hdata⟩,
    metadataChild, mem_elements_of_requiredChild hmetadataChild, hmetadata⟩

/-- **Payloads of envelopes that are read from JSON are as read.** -/
theorem asRead_of_ofJson {v : Json} {e : Event} (h : Event.ofJson v = .ok e) :
    ∀ p ∈ e.payloads, p.AsRead fun _ => True := by
  obtain ⟨⟨data, hdata⟩, metadata, hmetadata⟩ := ofJson_eq_ok h
  exact forall_payloads.mpr ⟨Payload.asRead_ofJson hdata, Meta.asRead_ofJson hmetadata⟩

/-- **Payloads of envelopes that are read from XML text are as read**, and their JSON is no
deeper than a reader goes. -/
theorem asRead_of_ofXmlText {s : String} {e : Event} (h : Event.ofXmlText s = .ok e) :
    ∀ p ∈ e.payloads, p.AsRead (Json.Bounded Json.maxDepth) := by
  unfold ofXmlText at h
  split at h
  · next n hn =>
    have hread := Node.asRead_of_parse hn
    obtain ⟨⟨data, hmem, hdata⟩, metadata, hmember, hmetadata⟩ := ofXml_eq_ok h
    exact forall_payloads.mpr ⟨Payload.asRead_ofXml (hread.of_mem_elements hmem) hdata,
      Meta.asRead_ofXml (hread.of_mem_elements hmember) hmetadata⟩
  · cases h

/-! ## Trees of envelopes -/

/-- The XML in an envelope. -/
def trees (e : Event) : List Node :=
  e.payloads.filterMap Payload.tree?

theorem forall_trees {e : Event} {P : Node → Prop} :
    (∀ n ∈ e.trees, P n) ↔ ∀ p ∈ e.payloads, ∀ n ∈ p.tree?, P n := by
  simp only [trees, List.mem_filterMap]
  constructor
  · exact fun h p hp n hn => h n ⟨p, hp, hn⟩
  · rintro h n ⟨p, hp, hn⟩
    exact h p hp n hn

theorem trees_readBack (e : Event) : e.readBack.trees = e.trees.map Node.norm := by
  rw [trees, trees, payloads_readBack, List.filterMap_map, List.map_filterMap]
  exact congrArg (fun f => e.payloads.filterMap f) (funext Payload.tree?_readBack)

theorem asRead_trees {J : Json → Prop} {e : Event} (h : ∀ p ∈ e.payloads, p.AsRead J) :
    ∀ n ∈ e.trees, n.AsRead :=
  forall_trees.mpr fun p hp => (h p hp).tree

/-- **Another reading joins texts in the trees of an envelope.** -/
theorem trees_readBack_of_asRead {J : Json → Prop} {e : Event}
    (h : ∀ p ∈ e.payloads, p.AsRead J) : e.readBack.trees = e.trees.map Node.joined := by
  rw [trees_readBack]
  exact List.map_congr_left fun n hn => (asRead_trees h n hn).norm_eq_joined

/-- Another reading leaves an envelope alone exactly if texts in its trees stand apart. -/
theorem readBack_eq_self_iff_textsApart {J : Json → Prop} {e : Event}
    (h : ∀ p ∈ e.payloads, p.AsRead J) :
    e.readBack = e ↔ ∀ n ∈ e.trees, n.textsApart = true := by
  rw [readBack_eq_self_iff, forall_trees]
  exact forall₂_congr fun p hp => (h p hp).readBack_eq_self_iff

/-- The tags of an envelope are those around its payloads, and those of its trees. -/
theorem every_toXml_iff {q : TagTest} (hbare : ∀ name ∈ base64Tag :: tagNames, q name [] = true)
    {e : Event} : e.toXml.every q = true ↔ ∀ n ∈ e.trees, n.every q = true := by
  obtain ⟨hbase64, hown⟩ := List.forall_mem_cons.mp hbare
  have htrees : (∀ n ∈ e.trees, n.every q = true)
      ↔ ∀ p ∈ e.payloads, p.toContent.every q = true := by
    rw [forall_trees]
    exact forall₂_congr fun p _ => (Payload.every_toContent_iff hbase64).symm
  rw [htrees]
  refine ⟨fun h => forall_payloads.mpr ⟨?_, fun u hu => ?_⟩, every_toXml hown⟩
  · have hdata : (Node.named dataField).push e.data.toContent ∈ e.toXml.elements := by
      rw [toXml_eq_ofElements, Node.elements_ofElements, fields]
      simp
    exact (Node.every_push.mp (Node.every_of_mem_elements h hdata)).2
  · have hmetadata : e.metadata.toXml ∈ e.toXml.elements := by
      rw [toXml_eq_ofElements, Node.elements_ofElements, fields]
      simp
    have huser : (Node.named metaPayloadKey).push u.payload.toContent
        ∈ e.metadata.toXml.elements := by
      rw [Meta.toXml_eq_ofElements, Node.elements_ofElements, hu]
      simp [Meta.userFields]
    have hall := Node.every_of_mem_elements h hmetadata
    exact (Node.every_push.mp (Node.every_of_mem_elements hall huser)).2

end Event

/-! ## Written envelopes -/

theorem UserMeta.exists_toJson_iff {u : UserMeta} :
    (∃ v, u.toJson = .ok v) ↔ ∀ n ∈ u.payload.tree?, n.every Xml.validName = true := by
  rw [toJson]
  split
  · next b hp =>
    rw [hp]
    exact iff_of_true ⟨_, rfl⟩ Payload.forall_mem_none
  · exact Payload.exists_toJson_iff

theorem Meta.exists_toJson_iff {m : Meta} :
    (∃ v, m.toJson = .ok v) ↔
      ∀ u, m.user = some u → ∀ n ∈ u.payload.tree?, n.every Xml.validName = true := by
  rw [toJson]
  cases m.user with
  | none => exact iff_of_true ⟨_, rfl⟩ (by rintro u ⟨⟩)
  | some u =>
    simp only [Option.some.injEq, forall_eq']
    rw [← UserMeta.exists_toJson_iff]
    constructor
    · rintro ⟨v, h⟩
      obtain ⟨payload, hpayload, -⟩ := bind_eq_ok.mp h
      exact ⟨payload, hpayload⟩
    · rintro ⟨payload, hpayload⟩
      rw [hpayload]
      exact ⟨_, rfl⟩

namespace Event

variable {e : Event}

/-- **An envelope is written as JSON exactly if the names in its trees are valid.** -/
theorem exists_toJson_iff :
    (∃ v, e.toJson = .ok v) ↔ ∀ n ∈ e.trees, n.every Xml.validName = true := by
  rw [forall_trees, forall_payloads, ← Payload.exists_toJson_iff, ← Meta.exists_toJson_iff]
  constructor
  · rintro ⟨v, h⟩
    obtain ⟨data, hdata, hrest⟩ := bind_eq_ok.mp h
    obtain ⟨metadata, hmetadata, -⟩ := bind_eq_ok.mp hrest
    exact ⟨⟨data, hdata⟩, metadata, hmetadata⟩
  · rintro ⟨⟨data, hdata⟩, metadata, hmetadata⟩
    rw [toJson, hdata, hmetadata]
    exact ⟨_, rfl⟩

/-- **An envelope is written as XML exactly if the names in its trees are valid.** -/
theorem exists_write_toXml_iff :
    (∃ s, e.toXml.write = .ok s) ↔ ∀ n ∈ e.trees, n.every Xml.validName = true := by
  rw [Node.exists_write_iff]
  exact every_toXml_iff (by decide +kernel)

/-! ## Reading again -/

/-- What was read is read again from its JSON. -/
theorem ofJson_toJson_of_asRead {J : Json → Prop} (h : ∀ p ∈ e.payloads, p.AsRead J)
    (hquotes : ∀ n ∈ e.trees, n.every Xml.closedQuotes = true) {v : Json}
    (hwrite : e.toJson = .ok v) : Event.ofJson v = .ok e.readBack :=
  ofJson_toJson_of_xmlReads (fun p hp => (h p hp).xmlReads (forall_trees.mp hquotes p hp))
    (fun p hp => (h p hp).decodes) hwrite

/-- The text of what was read is read as its normal form. -/
theorem ofXmlText_write_eq (htrees : ∀ n ∈ e.trees, n.AsRead)
    (hquotes : ∀ n ∈ e.trees, n.every Xml.closedQuotes = true) {s : String}
    (hwrite : e.toXml.write = .ok s) : Event.ofXmlText s = Event.ofXml e.toXml.norm := by
  have hreadable : e.toXml.every Xml.readableAttributes = true :=
    (every_toXml_iff fun _ _ => rfl).mpr fun n hn =>
      Node.every_and (htrees n hn).names (hquotes n hn)
  have hdistinct : e.toXml.every Xml.distinctAttributes = true :=
    (every_toXml_iff fun _ _ => rfl).mpr fun n hn => (htrees n hn).distinct
  rw [ofXmlText, Xml.parse_write_of_readable hreadable hdistinct hwrite]

/-- What was read is read again from its XML text, as long as names are not blank and doubles
are read as they are printed. -/
theorem ofXmlText_write_of_asRead (h : ∀ p ∈ e.payloads, p.AsRead (Json.Bounded Json.maxDepth))
    (hquotes : ∀ n ∈ e.trees, n.every Xml.closedQuotes = true)
    (hnames : ∀ name ∈ e.typeNames, Text.blankOnly name.toList = false)
    (hdoubles : ∀ p ∈ e.payloads, p.doublesReadBack = true) {s : String}
    (hwrite : e.toXml.write = .ok s) : Event.ofXmlText s = .ok e.readBack := by
  rw [ofXmlText_write_eq (asRead_trees h) hquotes hwrite]
  exact ofXml_norm hnames (fun p hp => (h p hp).jsonLegible (hdoubles p hp))
    fun p hp => (h p hp).decodes

/-! ## What must hold of what comes back -/

/-- Metadata that was read and comes back from its JSON leaves no quote in its tree open. -/
theorem closedQuotes_of_ofJson_meta {J : Json → Prop} {m : Meta} {v : Json}
    (h : ∀ u, m.user = some u → u.payload.AsRead J) (hwrite : m.toJson = .ok v)
    (hread : Meta.ofJson v = .ok m) :
    ∀ u, m.user = some u → ∀ n ∈ u.payload.tree?, n.every Xml.closedQuotes = true := by
  intro u huser n hn
  obtain ⟨payload, hpayload, hget, heq⟩ := (Meta.ofJson_toJson_eq hwrite).2 u huser
  rw [heq] at hread
  obtain ⟨p, hp, hrest⟩ := bind_eq_ok.mp hread
  obtain ⟨made, hmade, hdone⟩ := bind_eq_ok.mp hrest
  have hsame : some made = some u := (congrArg Meta.user (Except.ok.inj hdone)).trans huser
  obtain ⟨_, _, hparts⟩ := UserMeta.ofParts_eq_ok hmade
  have hback : u.payload = p := Option.some.inj hsame ▸ congrArg UserMeta.payload hparts
  have hplain : u.payload.kind ≠ .binary := by
    rw [Payload.eq_xml_of_mem_tree? hn]
    exact PayloadKind.noConfusion
  obtain ⟨hjson, hreads⟩ := u.readPayload_eq_of_get? hplain hpayload hget
  rw [hreads, ← hback] at hp
  exact (h u huser).closedQuotes_of_ofJson hjson hp n hn

/-- **What was read and comes back from its JSON leaves no quote open.** -/
theorem closedQuotes_of_ofJson_toJson {J : Json → Prop} (h : ∀ p ∈ e.payloads, p.AsRead J)
    {v : Json} (hwrite : e.toJson = .ok v) (hread : Event.ofJson v = .ok e) :
    ∀ n ∈ e.trees, n.every Xml.closedQuotes = true := by
  obtain ⟨data, metadata, hdata, hmetadata, heq⟩ := ofJson_toJson_parts hwrite
  rw [heq] at hread
  obtain ⟨m, hm, hrest⟩ := bind_eq_ok.mp hread
  obtain ⟨d, hd, hparts⟩ := bind_eq_ok.mp hrest
  obtain ⟨_, he⟩ := ofParts_eq_ok hparts
  have hdataBack : e.data = d := congrArg Event.data he
  have hmetadataBack : e.metadata = m := congrArg Event.metadata he
  rw [← hdataBack] at hd
  rw [← hmetadataBack] at hm
  refine forall_trees.mpr (forall_payloads.mpr ⟨?_, fun u hu => ?_⟩)
  · exact (h _ e.data_mem_payloads).closedQuotes_of_ofJson hdata hd
  · exact closedQuotes_of_ofJson_meta (fun u hu => h _ (user_mem_payloads hu)) hmetadata hm u hu

/-- **What comes back from its XML text has no blank name of a type.** -/
theorem not_blank_of_ofXmlText_write (htrees : ∀ n ∈ e.trees, n.AsRead)
    (hquotes : ∀ n ∈ e.trees, n.every Xml.closedQuotes = true) {s : String}
    (hwrite : e.toXml.write = .ok s) (hread : Event.ofXmlText s = .ok e) :
    ∀ name ∈ e.typeNames, Text.blankOnly name.toList = false := by
  intro name hname
  cases hblank : Text.blankOnly name.toList with
  | false => rfl
  | true =>
    rw [ofXmlText_write_eq htrees hquotes hwrite, ofXml_norm_of_blank ⟨name, hname, hblank⟩]
      at hread
    cases hread

/-! ## Both forms -/

/-- How an envelope that was read fares with a writer and a reader. Of what their form asks for
some is `given`, and the rest must hold `further` if the envelope is to come back. -/
structure Rereads {α ε : Type} (write : Event → Except ε α)
    (read : α → Except EnvelopeError Event) (given further : Event → Prop) (e : Event) : Prop where
  /-- It is written exactly if the names in its trees are valid. -/
  written : (∃ w, write e = .ok w) ↔ ∀ n ∈ e.trees, n.every Xml.validName = true
  /-- It is read again as an envelope whose neighbouring texts are joined. -/
  again : given e → further e → (∀ n ∈ e.trees, n.every Xml.closedQuotes = true) →
    ∀ w, write e = .ok w → read w = .ok e.readBack
  joined : e.readBack.trees = e.trees.map Node.joined
  same : e.readBack = e ↔ ∀ n ∈ e.trees, n.textsApart = true
  /-- It comes back as what it was exactly if it has no neighbouring texts, either. -/
  itself : given e → ((∃ w, write e = .ok w ∧ read w = .ok e) ↔
    further e ∧ ∀ n ∈ e.trees, n.every Xml.validName = true ∧
      n.every Xml.closedQuotes = true ∧ n.textsApart = true)

/-- When an envelope is written and read again, and what must hold if it comes back, make up
the whole. -/
theorem rereads_of_asRead {α ε : Type} {write : Event → Except ε α}
    {read : α → Except EnvelopeError Event} {given further : Event → Prop} {J : Json → Prop}
    (h : ∀ p ∈ e.payloads, p.AsRead J)
    (hwritten : (∃ w, write e = .ok w) ↔ ∀ n ∈ e.trees, n.every Xml.validName = true)
    (hagain : given e → further e → (∀ n ∈ e.trees, n.every Xml.closedQuotes = true) →
      ∀ w, write e = .ok w → read w = .ok e.readBack)
    (hback : given e → ∀ w, write e = .ok w → read w = .ok e →
      further e ∧ ∀ n ∈ e.trees, n.every Xml.closedQuotes = true) :
    e.Rereads write read given further where
  written := hwritten
  again := hagain
  joined := trees_readBack_of_asRead h
  same := readBack_eq_self_iff_textsApart h
  itself hgiven := by
    have hsame := readBack_eq_self_iff_textsApart h
    constructor
    · intro hcomes
      obtain ⟨w, hw, hread⟩ := hcomes
      obtain ⟨hfurther, hquotes⟩ := hback hgiven w hw hread
      have hreadBack : e.readBack = e :=
        Except.ok.inj ((hagain hgiven hfurther hquotes w hw).symm.trans hread)
      exact ⟨hfurther, fun n hn =>
        ⟨hwritten.mp ⟨w, hw⟩ n hn, hquotes n hn, hsame.mp hreadBack n hn⟩⟩
    · intro hall
      obtain ⟨hfurther, htrees⟩ := hall
      obtain ⟨w, hw⟩ := hwritten.mpr fun n hn => (htrees n hn).1
      have hread := hagain hgiven hfurther (fun n hn => (htrees n hn).2.1) w hw
      rw [hsame.mpr fun n hn => (htrees n hn).2.2] at hread
      exact ⟨w, hw, hread⟩

/-- What is taken as given of XML text: that tags end where they should, and that doubles are
read as they are printed. -/
structure TextGiven (e : Event) : Prop where
  quotes : ∀ n ∈ e.trees, n.every Xml.closedQuotes = true
  doubles : ∀ p ∈ e.payloads, p.doublesReadBack = true

/-- No name of a type is blank. -/
def NoBlankName (e : Event) : Prop :=
  ∀ name ∈ e.typeNames, Text.blankOnly name.toList = false

/-- **What was read from JSON comes back from it exactly if the names in its trees are valid, no
quote is left open and no texts are neighbours.** From XML text, with its quotes and doubles
taken as given, it comes back exactly if no name of a type is blank, either. -/
theorem reread (e : Event) :
    (∀ v, Event.ofJson v = .ok e →
      e.Rereads toJson Event.ofJson (fun _ => True) fun _ => True) ∧
    (∀ s, Event.ofXmlText s = .ok e →
      e.Rereads (fun e => e.toXml.write) Event.ofXmlText TextGiven NoBlankName) := by
  refine ⟨fun v h => ?_, fun s h => ?_⟩
  · have hread := asRead_of_ofJson h
    exact rereads_of_asRead hread exists_toJson_iff
      (fun _ _ hquotes _ hw => ofJson_toJson_of_asRead hread hquotes hw)
      fun _ _ hw hback => ⟨trivial, closedQuotes_of_ofJson_toJson hread hw hback⟩
  · have hread := asRead_of_ofXmlText h
    exact rereads_of_asRead hread exists_write_toXml_iff
      (fun hgiven hnames hquotes _ ht =>
        ofXmlText_write_of_asRead hread hquotes hnames hgiven.doubles ht)
      fun hgiven _ ht hback =>
        ⟨not_blank_of_ofXmlText_write (asRead_trees hread) hgiven.quotes ht hback, hgiven.quotes⟩

/-- An order that was read is written, and read again as what it is. -/
theorem reread_order :
    (∃ v w, Event.ofJson v = .ok order.readBack ∧ order.readBack.toJson = .ok w ∧
      Event.ofJson w = .ok order.readBack) ∧
    ∃ s t, Event.ofXmlText s = .ok order.readBack ∧ order.readBack.toXml.write = .ok t ∧
      Event.ofXmlText t = .ok order.readBack := by
  obtain ⟨hjson, hxml⟩ := reread order.readBack
  have hquotes : ∀ n ∈ order.readBack.trees, n.every Xml.closedQuotes = true := by decide +kernel
  have htrees : ∀ n ∈ order.readBack.trees, n.every Xml.validName = true ∧
      n.every Xml.closedQuotes = true ∧ n.textsApart = true := by decide +kernel
  refine ⟨?_, ?_⟩
  · obtain ⟨v, hv⟩ : ∃ v, order.toJson = .ok v := exists_ok_of_isOk (by decide +kernel)
    have hread := ofJson_toJson (by decide +kernel) (by decide +kernel) hv
    obtain ⟨w, hw, hagain⟩ := ((hjson v hread).itself trivial).mpr ⟨trivial, htrees⟩
    exact ⟨v, w, hread, hw, hagain⟩
  · obtain ⟨s, hs⟩ : ∃ s, order.toXml.write = .ok s := exists_ok_of_isOk (by decide +kernel)
    have hparse := Node.parse_write_of_legible (legible_toXml (by decide +kernel)) hs
    have hread : Event.ofXmlText s = .ok order.readBack := by
      rw [ofXmlText, hparse]
      exact ofXml_norm (by decide +kernel) (by decide +kernel) (by decide +kernel)
    have hnames : order.readBack.NoBlankName := by
      unfold NoBlankName
      decide +kernel
    obtain ⟨t, ht, hagain⟩ :=
      ((hxml s hread).itself ⟨hquotes, by decide +kernel⟩).mpr ⟨hnames, htrees⟩
    exact ⟨s, t, hread, ht, hagain⟩

/-! ## What is not read again as what it was -/

/-- A note of XML in an envelope as JSON. -/
def noted (data : String) : Json :=
  .object [(idField, .string EventId.greatest.text), (typeField, .string "Noted"),
    (dataField, .string data), (metadataField, .object [(dataTypeKey, .string "Note"),
      (dataContentTypeKey, .string "application/xml")])]

/-- A note of XML in the text of an envelope. -/
def notedText (data : String) : String :=
  "<Event><EventId>" ++ EventId.greatest.text ++ "</EventId><EventType>Noted</EventType><Data>" ++
    data ++ "</Data><MetaData><data-type>Note</data-type>" ++
    "<data-content-type>application/xml</data-content-type></MetaData></Event>"

/-- A note in two texts. -/
def halves : Node :=
  { name := "a", attributes := [], children := [.text "x", .text "y"] }

/-- An envelope whose note is in two texts is not the same when it is read again. -/
theorem readBack_ne_of_halves {J : Json → Prop} (h : ∀ p ∈ e.payloads, p.AsRead J)
    (htrees : e.trees = [halves]) : e.readBack ≠ e := by
  intro hsame
  have hapart := (readBack_eq_self_iff_textsApart h).mp hsame halves
    (htrees ▸ List.mem_singleton_self _)
  exact absurd hapart (by decide +kernel)

/-- Notes are read that cannot be written, as the element has no valid name, and that are not
the same again, as a comment stands between two texts. -/
theorem reread_noted :
    (∃ e, Event.ofJson (noted "<1a/>") = .ok e ∧ ∀ w, e.toJson ≠ .ok w) ∧
    (∃ e w f, Event.ofJson (noted "<a>x<!-- -->y</a>") = .ok e ∧ e.toJson = .ok w ∧
      Event.ofJson w = .ok f ∧ f ≠ e) ∧
    ∃ e t f, Event.ofXmlText (notedText "<a>x<!-- -->y</a>") = .ok e ∧ e.toXml.write = .ok t ∧
      Event.ofXmlText t = .ok f ∧ f ≠ e := by
  have hvalid : ∀ n ∈ [halves], n.every Xml.validName = true := by decide +kernel
  have hquotes : ∀ n ∈ [halves], n.every Xml.closedQuotes = true := by decide +kernel
  refine ⟨?_, ?_, ?_⟩
  · have hunwritten : (Event.ofJson (noted "<1a/>")).toOption.map (fun e => e.toJson.isOk)
        = some false := by decide +kernel
    obtain ⟨e, he, hfails⟩ := Option.map_eq_some_iff.mp hunwritten
    refine ⟨e, toOption_eq_some.mp he, fun w hw => ?_⟩
    rw [hw] at hfails
    cases hfails
  · have hnoted : (Event.ofJson (noted "<a>x<!-- -->y</a>")).toOption.map trees
        = some [halves] := by decide +kernel
    obtain ⟨e, he, htrees⟩ := Option.map_eq_some_iff.mp hnoted
    have hread := asRead_of_ofJson (toOption_eq_some.mp he)
    obtain ⟨w, hw⟩ := exists_toJson_iff.mpr (htrees ▸ hvalid)
    have hagain := ofJson_toJson_of_asRead hread (htrees ▸ hquotes) hw
    exact ⟨e, w, e.readBack, toOption_eq_some.mp he, hw, hagain,
      readBack_ne_of_halves hread htrees⟩
  · have hnoted : (Event.ofXmlText (notedText "<a>x<!-- -->y</a>")).toOption.map (fun e =>
        (e.trees, e.typeNames, e.payloads.all Payload.doublesReadBack))
        = some ([halves], ["Noted", "Note"], true) := by decide +kernel
    obtain ⟨e, he, hfacts⟩ := Option.map_eq_some_iff.mp hnoted
    obtain ⟨htrees, hfacts⟩ := Prod.mk.inj hfacts
    obtain ⟨hnames, hdoubles⟩ := Prod.mk.inj hfacts
    have hread := asRead_of_ofXmlText (toOption_eq_some.mp he)
    obtain ⟨t, ht⟩ := exists_write_toXml_iff.mpr (htrees ▸ hvalid)
    have hagain := ofXmlText_write_of_asRead hread (htrees ▸ hquotes)
      (hnames ▸ by decide +kernel) (List.all_eq_true.mp hdoubles) ht
    exact ⟨e, t, e.readBack, toOption_eq_some.mp he, ht, hagain,
      readBack_ne_of_halves hread htrees⟩

end Event

end EventWire

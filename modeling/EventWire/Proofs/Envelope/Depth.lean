import EventWire.Proofs.Envelope.Domain
import EventWire.Proofs.Envelope.Reread

/-!
# How deep JSON may be in an envelope

JSON from the wire is read by itself and may nest as deep as a reader goes. In the text of
an envelope it is one level further down, as a member of the envelope. So of all that can be
read from bytes, JSON at the last level alone makes an envelope whose text is not read
(`ofJsonText_print_of_ofSerialized`). Metadata adds no level of its own as long as it is text
or bytes.
-/

namespace EventWire

namespace Json

/-- True for objects whose members are strings and have distinct keys. -/
def Flat (members : List (String × Json)) : Prop :=
  (members.map (·.1)).Nodup ∧ ∀ m ∈ members, ∃ s, m.2 = .string s

theorem flat_insert {members : List (String × Json)} (h : Flat members) (key s : String) :
    Flat (insert key (.string s) members) :=
  ⟨nodup_insert h.1 key _, forall_insert (P := fun v => ∃ s, v = .string s) ⟨s, rfl⟩ key h.2⟩

theorem bounded_of_flat {members : List (String × Json)} (h : Flat members) :
    Bounded 1 (.object members) := by
  refine bounded_object h.1 fun m hm => ?_
  obtain ⟨s, hs⟩ := h.2 m hm
  rw [hs]
  exact ⟨Nat.zero_le _, rfl⟩

theorem doublesReadBack_of_flat {members : List (String × Json)} (h : Flat members) :
    doublesReadBack (.object members) = true := by
  refine every_object.mpr ⟨rfl, fun m hm => ?_⟩
  obtain ⟨s, hs⟩ := h.2 m hm
  rw [hs]
  rfl

end Json

namespace Payload

variable {p : Payload}

/-- JSON from bytes is no deeper than a reader goes, and has no key twice. -/
theorem exists_bounded_of_fromBytes {m : MediaType} {bs : Bytes}
    (hjson : PayloadKind.ofMediaType m = .json) (h : fromBytes bs m = .ok p) :
    ∃ v, p = .json v ∧ v.Bounded Json.maxDepth := by
  have hkind : .json = p.kind := hjson.symm.trans (kind_of_fits (fits_of_fromBytes h))
  cases asRead_fromBytes h with
  | json hv => exact ⟨_, rfl, hv⟩
  | xml hn => cases hkind
  | text s => cases hkind
  | bytes bs => cases hkind

/-- True for payloads that are strings in an envelope: text and bytes. -/
def IsFlat (p : Payload) : Prop :=
  p.kind = .text ∨ p.kind = .binary

theorem IsFlat.cases (h : p.IsFlat) : (∃ s, p = .text s) ∨ ∃ b, p = .binary b := by
  rcases h with h | h
  · cases p with
    | text s => exact Or.inl ⟨s, rfl⟩
    | _ => cases h
  · cases p with
    | binary b => exact Or.inr ⟨b, rfl⟩
    | _ => cases h

theorem IsFlat.tree?_eq_none (h : p.IsFlat) : p.tree? = none := by
  rcases h.cases with ⟨s, rfl⟩ | ⟨b, rfl⟩
  · rfl
  · rfl

end Payload

/-- Metadata of text or bytes is a string in an envelope. -/
theorem UserMeta.exists_toJson_string {u : UserMeta} (h : u.payload.IsFlat) :
    ∃ s, u.toJson = .ok (.string s) := by
  rw [toJson]
  rcases h.cases with ⟨s, hs⟩ | ⟨b, hb⟩
  · rw [hs]
    exact ⟨s, rfl⟩
  · rw [hb]
    exact ⟨b.text, rfl⟩

theorem SystemMeta.flat_members (s : SystemMeta) : Json.Flat s.members := by
  obtain ⟨dataType, contentType, user⟩ := s
  cases user with
  | none =>
    refine ⟨show [dataTypeKey, dataContentTypeKey].Nodup by decide, ?_⟩
    exact List.forall_mem_cons.mpr ⟨⟨_, rfl⟩, List.forall_mem_singleton.mpr ⟨_, rfl⟩⟩
  | some p =>
    refine ⟨show reservedKeys.Nodup by decide, ?_⟩
    refine List.forall_mem_cons.mpr ⟨⟨_, rfl⟩, List.forall_mem_cons.mpr ⟨⟨_, rfl⟩, ?_⟩⟩
    exact List.forall_mem_cons.mpr ⟨⟨_, rfl⟩, List.forall_mem_singleton.mpr ⟨_, rfl⟩⟩

/-- With metadata of text or bytes, or none, the part adds one level. -/
theorem Meta.exists_toJson_flat {m : Meta} (h : ∀ u, m.user = some u → u.payload.IsFlat) :
    ∃ members, m.toJson = .ok (.object members) ∧ Json.Flat members := by
  rw [toJson]
  cases huser : m.user with
  | none => exact ⟨m.system.members, rfl, m.system.flat_members⟩
  | some u =>
    obtain ⟨s, hs⟩ := UserMeta.exists_toJson_string (h u huser)
    dsimp only
    rw [hs]
    exact ⟨_, rfl, Json.flat_insert m.system.flat_members u.jsonKey s⟩

namespace Event

/-- What an envelope from bytes is made of. -/
theorem ofSerialized_eq_ok {s : SerializedEvent} {e : Event} (h : Event.ofSerialized s = .ok e) :
    Payload.fromBytes s.data.bytes s.data.mediaType = .ok e.data ∧
      ∀ u, e.metadata.user = some u →
        ∃ d ∈ s.metadata, Payload.fromBytes d.bytes d.mediaType = .ok u.payload := by
  obtain ⟨data, hdata, hrest⟩ := bind_eq_ok.mp h
  cases hmetadata : s.metadata with
  | none =>
    rw [hmetadata] at hrest
    obtain ⟨hfits, rfl⟩ := ofParts_eq_ok hrest
    exact ⟨hdata, fun _ hu => nomatch hu⟩
  | some d =>
    rw [hmetadata] at hrest
    obtain ⟨payload, hpayload, hmade⟩ := bind_eq_ok.mp hrest
    obtain ⟨u, hu, hparts⟩ := bind_eq_ok.mp hmade
    obtain ⟨hufits, huadmitted, rfl⟩ := UserMeta.ofParts_eq_ok hu
    obtain ⟨hfits, rfl⟩ := ofParts_eq_ok hparts
    refine ⟨hdata, ?_⟩
    rintro u ⟨⟩
    exact ⟨d, rfl, hpayload⟩

/-- An envelope in JSON, of the JSON of its data and the members of its metadata. -/
def envelope (e : Event) (v : Json) (members : List (String × Json)) : Json :=
  .object [(idField, .string e.id.text), (typeField, .string e.type.text), (dataField, v),
    (metadataField, .object members)]

section Envelopes

variable {e : Event} {v : Json} {members : List (String × Json)}

theorem forall_envelope {P : Json → Prop} (hstring : ∀ s, P (.string s)) (hv : P v)
    (hmembers : P (.object members)) :
    ∀ m ∈ [(idField, Json.string e.id.text), (typeField, .string e.type.text), (dataField, v),
      (metadataField, .object members)], P m.2 :=
  List.forall_mem_cons.mpr ⟨hstring _, List.forall_mem_cons.mpr ⟨hstring _,
    List.forall_mem_cons.mpr ⟨hv, List.forall_mem_singleton.mpr hmembers⟩⟩⟩

/-- The data stands one level down, as does the metadata, which is an object itself. -/
theorem depth_envelope (h : Json.Flat members) :
    (envelope e v members).depth = 1 + max v.depth 1 := by
  have hmembers := (Json.bounded_of_flat h).depth
  simp only [envelope, Json.depth, Json.depthOfMembers] at hmembers ⊢
  omega

theorem distinctKeys_envelope (hv : v.distinctKeys = true) (h : Json.Flat members) :
    (envelope e v members).distinctKeys = true := by
  refine Json.every_object.mpr ⟨?_, forall_envelope (P := fun w => w.distinctKeys = true)
    (fun _ => rfl) hv (Json.bounded_of_flat h).keys⟩
  show decide [idField, typeField, dataField, metadataField].Nodup = true
  decide

theorem doublesReadBack_envelope (hv : v.doublesReadBack = true) (h : Json.Flat members) :
    (envelope e v members).doublesReadBack = true :=
  Json.every_object.mpr ⟨rfl, forall_envelope (P := fun w => w.doublesReadBack = true)
    (fun _ => rfl) hv (Json.doublesReadBack_of_flat h)⟩

end Envelopes

/-- **The text of an envelope of JSON is read if the JSON nests less deep than a reader
goes**, and refused otherwise. -/
theorem ofJsonText_toJson {J : Json → Prop} {e : Event} {v : Json}
    (hpayloads : ∀ p ∈ e.payloads, p.AsRead J) (hv : e.data = .json v)
    (hkeys : v.distinctKeys = true) (hdoubles : v.doublesReadBack = true)
    (huser : ∀ u, e.metadata.user = some u → u.payload.IsFlat) :
    ∃ w, e.toJson = .ok w ∧ (v.depth < Json.maxDepth → Event.ofJsonText w.print = .ok e) ∧
      (Json.maxDepth ≤ v.depth → Event.ofJsonText w.print = .error .json) := by
  obtain ⟨members, hmembers, hflat⟩ := Meta.exists_toJson_flat huser
  have htrees {P : Xml.Node → Prop} : ∀ n ∈ e.trees, P n := by
    refine forall_trees.mpr (forall_payloads.mpr ⟨?_, fun u hu => ?_⟩)
    · rw [hv]
      exact Payload.forall_mem_none
    · rw [(huser u hu).tree?_eq_none]
      exact Payload.forall_mem_none
  have hwritten : e.toJson = .ok (envelope e v members) := by
    rw [toJson, hv, hmembers]
    rfl
  have hread : Event.ofJson (envelope e v members) = .ok e := by
    have hagain := ofJson_toJson_of_asRead hpayloads htrees hwritten
    rwa [(readBack_eq_self_iff_textsApart hpayloads).mpr htrees] at hagain
  have hprinted := doublesReadBack_envelope (e := e) hdoubles hflat
  have hdepth := depth_envelope (e := e) (v := v) hflat
  have hmax : Json.maxDepth = 127 := rfl
  refine ⟨_, hwritten, fun hless => ?_, fun hdeep => ?_⟩
  · rw [ofJsonText, Json.parse?_print (by omega) (distinctKeys_envelope hkeys hflat) hprinted]
    exact hread
  · rw [ofJsonText, Json.parse?_print_eq_none (by omega) hprinted]

/-- **An envelope of JSON from bytes is read from its text, unless the JSON is as deep as a
reader goes.** -/
theorem ofJsonText_print_of_ofSerialized {s : SerializedEvent} {e : Event}
    (hjson : s.data.mediaType.isJson = true)
    (huser : ∀ d ∈ s.metadata, PayloadKind.ofMediaType d.mediaType = .text ∨
      PayloadKind.ofMediaType d.mediaType = .binary)
    (h : Event.ofSerialized s = .ok e) (hdoubles : e.data.doublesReadBack = true) :
    ∃ v w, e.data = .json v ∧ e.toJson = .ok w ∧ v.depth ≤ Json.maxDepth ∧
      (v.depth < Json.maxDepth → Event.ofJsonText w.print = .ok e) ∧
      (v.depth = Json.maxDepth → Event.ofJsonText w.print = .error .json) := by
  obtain ⟨hdata, hmetadata⟩ := ofSerialized_eq_ok h
  have hkind : PayloadKind.ofMediaType s.data.mediaType = .json := if_pos hjson
  obtain ⟨v, hv, hbounded⟩ := Payload.exists_bounded_of_fromBytes hkind hdata
  have hpayloads : ∀ p ∈ e.payloads, p.AsRead (Json.Bounded Json.maxDepth) := by
    refine forall_payloads.mpr ⟨Payload.asRead_fromBytes hdata, fun u hu => ?_⟩
    obtain ⟨d, -, hpayload⟩ := hmetadata u hu
    exact Payload.asRead_fromBytes hpayload
  have hflat (u : UserMeta) (hu : e.metadata.user = some u) : u.payload.IsFlat := by
    obtain ⟨d, hd, hpayload⟩ := hmetadata u hu
    rw [Payload.IsFlat, ← Payload.kind_of_fits (Payload.fits_of_fromBytes hpayload)]
    exact huser d hd
  rw [hv] at hdoubles
  obtain ⟨w, hw, hread, hrefused⟩ := ofJsonText_toJson hpayloads hv hbounded.keys hdoubles hflat
  exact ⟨v, w, hv, hw, hbounded.depth, hread, fun hlast => hrefused (Nat.le_of_eq hlast.symm)⟩

/-- A list in a list, with a note of who made it in bytes. -/
def nested : SerializedEvent where
  id := .greatest
  type := ⟨"Listed", by decide +kernel⟩
  data := {
    type := ⟨"Lists", by decide +kernel⟩
    mediaType := .json .utf8
    bytes := Text.Utf8.encode "[[1.5], null]".toList }
  metadata := some { type := Bookshop.blob, mediaType := .octetStream, bytes := [0xFF] }

/-- Lists in a list are read from the text of their envelope. -/
theorem ofJsonText_print_of_ofSerialized_nested :
    ∃ e w, Event.ofSerialized nested = .ok e ∧ e.toJson = .ok w ∧
      Event.ofJsonText w.print = .ok e := by
  have hnested : ((Event.ofSerialized nested).toOption.bind fun e =>
      e.data.toJson.toOption.map fun v => (e.data.doublesReadBack, v.depth)) = some (true, 2) := by
    decide +kernel
  obtain ⟨e, he, hdata⟩ := Option.bind_eq_some_iff.mp hnested
  obtain ⟨u, hu, hfacts⟩ := Option.map_eq_some_iff.mp hdata
  obtain ⟨hdoubles, hdepth⟩ := Prod.mk.inj hfacts
  have huser : ∀ d ∈ nested.metadata, PayloadKind.ofMediaType d.mediaType = .text ∨
      PayloadKind.ofMediaType d.mediaType = .binary := by
    rintro d ⟨⟩
    exact Or.inr (by decide +kernel)
  obtain ⟨v, w, hv, hw, -, hread, -⟩ := ofJsonText_print_of_ofSerialized (by decide +kernel) huser
    (toOption_eq_some.mp he) hdoubles
  have hsame : v = u := by
    rw [hv] at hu
    exact Option.some.inj hu
  refine ⟨e, w, toOption_eq_some.mp he, hw, hread ?_⟩
  rw [hsame, hdepth]
  decide

end Event

/-- An empty list in that many lists. -/
def Json.nest : Nat → Json
  | 0 => .array []
  | n + 1 => .array [nest n]

theorem Json.depth_nest (n : Nat) : (nest n).depth = n + 1 := by
  induction n with
  | zero => rfl
  | succ n ih =>
    rw [nest, depth, depthOfItems, depthOfItems, ih]
    omega

theorem Json.every_nest {number : Number → Bool} {keys : List String → Bool} (n : Nat) :
    every number keys (nest n) = true := by
  induction n with
  | zero => rfl
  | succ n ih => exact every_array.mpr (List.forall_mem_singleton.mpr ih)

namespace Event

/-- An envelope of lists as deep as a reader goes. -/
def deep : Event where
  id := .greatest
  type := ⟨"Listed", by decide +kernel⟩
  data := .json (Json.nest 126)
  metadata := {
    dataType := ⟨"Lists", by decide +kernel⟩
    contentType := .json .utf8
    user := none }
  fits := by decide +kernel

/-- The same as bytes. -/
def deepBytes : SerializedEvent where
  id := deep.id
  type := deep.type
  data := {
    type := deep.metadata.dataType
    mediaType := deep.metadata.contentType
    bytes := Text.Utf8.encode (Json.nest 126).print.toList }
  metadata := none

/-- The lists are read from bytes and written into an envelope, whose text is not read. -/
theorem ofJsonText_print_deep :
    deepBytes.data.mediaType.isJson = true ∧ Event.ofSerialized deepBytes = .ok deep ∧
      deep.data.doublesReadBack = true ∧
      ∃ w, deep.toJson = .ok w ∧ Event.ofJsonText w.print = .error .json := by
  have hkeys : (Json.nest 126).distinctKeys = true := Json.every_nest 126
  have hdoubles : (Json.nest 126).doublesReadBack = true := Json.every_nest 126
  have hdepth : (Json.nest 126).depth = Json.maxDepth := Json.depth_nest 126
  have hlegible : (Json.nest 126).legible = true := by
    rw [Json.legible, hkeys, hdoubles, hdepth]
    decide
  have hencode : encodeText .utf8 (Json.nest 126).print = .ok deepBytes.data.bytes := by
    rw [encodeText, Charset.encode, mapError_ok, deepBytes]
  have hbytes : Payload.fromBytes deepBytes.data.bytes (.json .utf8) = .ok deep.data :=
    Payload.fromBytes_print hlegible hencode
  have hread : Event.ofSerialized deepBytes = .ok deep.readBack :=
    ofSerialized_of_carries ⟨rfl, rfl, ⟨rfl, rfl, hbytes⟩, trivial⟩
  have hpayloads : ∀ p ∈ deep.payloads, p.AsRead fun _ => True :=
    forall_payloads.mpr ⟨.json trivial, by rintro u ⟨⟩⟩
  obtain ⟨w, hw, -, hrefused⟩ :=
    ofJsonText_toJson hpayloads rfl hkeys hdoubles (by rintro u ⟨⟩)
  exact ⟨by decide +kernel, hread, hdoubles, w, hw, hrefused (Nat.le_of_eq hdepth.symm)⟩

end Event

end EventWire

import EventWire.Proofs.Envelope.Json
import EventWire.Proofs.Envelope.Xml
import EventWire.Proofs.Json.Read
import EventWire.Bookshop
import Mathlib.Data.List.Nodup

/-!
# What readers of envelopes leave alone

An envelope may come back with more in it than was written: members with keys of others, elements
with names of others, text, and all of it in any order (`Among`). A reader looks up its own keys
and names and nothing else, and each of them is there once, so it finds what it would have found
(`Among.find?_key`). Which key the payload of the metadata has is up to the envelope: it is the
name of a type or that of base64 text, and the other one of the two is as foreign as any.
`padding_ignored` is the result for both formats.
-/

namespace EventWire

open Xml (Node Content)

/-! ## Foreign things among own ones -/

section Among

variable {α β : Type}

/-- `all` has in it what `own` has, in any order, and otherwise only what is foreign. -/
def Among (foreign : α → Prop) (own all : List α) : Prop :=
  ∃ extra, (∀ x ∈ extra, foreign x) ∧ all.Perm (own ++ extra)

variable {foreign : α → Prop} {own all : List α}

/-- What is taken from each thing is among what is taken from the own ones. -/
theorem Among.filterMap {alien : β → Prop} {f : α → Option β} (h : Among foreign own all)
    (hf : ∀ x y, foreign x → f x = some y → alien y) :
    Among alien (own.filterMap f) (all.filterMap f) := by
  obtain ⟨extra, hextra, hperm⟩ := h
  refine ⟨extra.filterMap f, fun y hy => ?_, ?_⟩
  · obtain ⟨x, hx, hxy⟩ := List.mem_filterMap.mp hy
    exact hf x y (hextra x hx) hxy
  · rw [← List.filterMap_append]
    exact hperm.filterMap f

/-- Lists of one thing at most are equal if one is an order of the other. -/
theorem eq_of_perm_of_length_le_one {xs ys : List α} (h : xs.Perm ys) (hone : ys.length ≤ 1) :
    xs = ys := by
  match ys, hone with
  | [], _ => exact h.eq_nil
  | [y], _ => exact h.eq_singleton

theorem length_filter_key_le_one [DecidableEq β] {key : α → β} {xs : List α}
    (h : (xs.map key).Nodup) (k : β) : (xs.filter fun x => key x = k).length ≤ 1 := by
  have hcount := List.nodup_iff_count_le_one.mp h k
  rw [List.count_eq_countP, List.countP_map, List.countP_eq_length_filter] at hcount
  exact hcount

/-- **What has a key of its own is found as if there were nothing else.** -/
theorem Among.find?_key [DecidableEq β] {key : α → β} (h : Among foreign own all)
    (hnodup : (own.map key).Nodup) {k : β} (hforeign : ∀ x, foreign x → key x ≠ k) :
    (all.find? fun x => key x = k) = own.find? fun x => key x = k := by
  obtain ⟨extra, hextra, hperm⟩ := h
  have hnone : (extra.filter fun x => key x = k) = [] :=
    List.filter_eq_nil_iff.mpr fun x hx => by simpa using hforeign x (hextra x hx)
  have hsame := hperm.filter fun x => key x = k
  rw [List.filter_append, hnone, List.append_nil] at hsame
  rw [← List.head?_filter, ← List.head?_filter,
    eq_of_perm_of_length_le_one hsame (length_filter_key_le_one hnodup k)]

/-- What stands nowhere before the end of a list is the last thing of it. -/
theorem eq_of_concat_eq {front before after : List α} {x y : α} (hfront : y ∉ front)
    (h : front ++ [x] = before ++ y :: after) : before = front ∧ after = [] ∧ y = x := by
  induction front generalizing before with
  | nil =>
    rcases List.append_eq_singleton_iff.mp h.symm with ⟨rfl, hlast⟩ | ⟨-, hlast⟩
    · obtain ⟨rfl, rfl⟩ := List.cons.inj hlast
      exact ⟨rfl, rfl, rfl⟩
    · cases hlast
  | cons a front ih =>
    obtain ⟨hne, hlater⟩ := not_or.mp fun hmem => hfront (List.mem_cons.mpr hmem)
    cases before with
    | nil => exact absurd (List.cons.inj h).1.symm hne
    | cons b before =>
      obtain ⟨rfl, hrest⟩ := List.cons.inj h
      obtain ⟨rfl, hafter, hlast⟩ := ih hlater hrest
      exact ⟨rfl, hafter, hlast⟩

end Among

theorem Json.lookup_eq_find? (key : String) (members : List (String × Json)) :
    lookup key members = (members.find? fun m => m.1 = key).map (·.2) := by
  induction members with
  | nil => rfl
  | cons m rest ih =>
    obtain ⟨k, v⟩ := m
    by_cases h : k = key <;> simp [lookup, h, ih]

/-- Own members are found among foreign ones. -/
theorem Json.lookup_of_among {keys : List String} {own all : List (String × Json)}
    (h : Among (fun m => m.1 ∉ keys) own all) (hnodup : (own.map (·.1)).Nodup) {key : String}
    (hkey : key ∈ keys) : lookup key all = lookup key own := by
  rw [lookup_eq_find?, lookup_eq_find?,
    h.find?_key hnodup fun m hm he => hm (by rwa [he])]

/-- What an element of others may be called, and all that is no element. -/
def Xml.Content.Foreign (names : List String) : Content → Prop
  | .element name _ _ => name ∉ names
  | .text _ => True
  | .cdata _ => True

/-- Own elements are found among foreign ones and text. -/
theorem Xml.Node.child?_of_among {names : List String} {n n' : Node}
    (h : Among (Content.Foreign names) n.children n'.children)
    (hnodup : (n.elements.map (·.name)).Nodup) {name : String} (hname : name ∈ names) :
    n'.child? name = n.child? name := by
  have helements : Among (fun e : Node => e.name ∉ names) n.elements n'.elements := by
    refine h.filterMap fun c e hc he => ?_
    cases c with
    | element name attributes children =>
      cases he
      exact hc
    | text s => cases he
    | cdata s => cases he
  exact helements.find?_key hnodup fun e hforeign he => hforeign (by rwa [he])

/-! ## Metadata -/

/-- The keys of the metadata part in JSON. -/
def Meta.ownKeys (m : Meta) : List String :=
  reservedKeys ++ (m.user.map (·.jsonKey)).toList

/-- The elements of the metadata part in XML. -/
def Meta.ownTags : List String :=
  reservedKeys ++ [metaPayloadKey]

/-- The types are members of their own, next to which there is at most the payload. -/
theorem Meta.exists_members {m : Meta} {v : Json} (h : m.toJson = .ok v) :
    ∃ members, v = .object members ∧ (members.map (·.1)).Nodup ∧
      ∀ key ∈ reservedKeys, Json.lookup key members = Json.lookup key m.system.members := by
  have hsystem : (m.system.members.map (·.1)).Nodup := by
    rw [SystemMeta.members]
    cases m.system.user with
    | none => exact (by decide : [dataTypeKey, dataContentTypeKey].Nodup)
    | some p => exact (by decide : reservedKeys.Nodup)
  rw [toJson] at h
  split at h
  · cases h
    exact ⟨_, rfl, hsystem, fun _ _ => rfl⟩
  · next u _ =>
    obtain ⟨payload, -, hv⟩ := bind_eq_ok.mp h
    cases hv
    exact ⟨_, rfl, Json.nodup_insert hsystem _ _, fun key hkey =>
      Json.lookup_insert_of_ne (fun e => u.jsonKey_notMem_reservedKeys (by rwa [← e])) _ _⟩

/-- Reading the payload of the metadata takes nothing but what is under its key. -/
theorem UserMeta.readPayload_congr (u : UserMeta) {v v' : Json}
    (h : v'.get? u.jsonKey = v.get? u.jsonKey) :
    Meta.readPayload v' u.type u.contentType = Meta.readPayload v u.type u.contentType := by
  have hkind := Payload.kind_of_fits u.fits
  unfold Meta.readPayload
  by_cases hbinary : u.payload.kind = .binary
  · rw [jsonKey, if_pos hbinary] at h
    rw [if_pos (hkind.trans hbinary), if_pos (hkind.trans hbinary), h]
  · rw [jsonKey, if_neg hbinary] at h
    rw [if_neg fun e => hbinary (hkind.symm.trans e), if_neg fun e => hbinary (hkind.symm.trans e),
      h]

/-- **Foreign members do not change the metadata that is read**, nor what it says about types. -/
theorem Meta.ofJson_of_among {m : Meta} {own all : List (String × Json)}
    (h : m.toJson = .ok (.object own)) (hamong : Among (fun x => x.1 ∉ m.ownKeys) own all) :
    SystemMeta.ofJson (.object own) = .ok m.system ∧
      SystemMeta.ofJson (.object all) = .ok m.system ∧
      Meta.ofJson (.object all) = Meta.ofJson (.object own) := by
  obtain ⟨members, hv, hnodup, htypes⟩ := exists_members h
  obtain rfl := Json.object.inj hv
  have hlookup : ∀ key ∈ m.ownKeys, Json.lookup key all = Json.lookup key own := fun key hkey =>
    Json.lookup_of_among hamong hnodup hkey
  have hown := SystemMeta.ofJson_of_lookup htypes
  have hall : SystemMeta.ofJson (.object all) = .ok m.system :=
    SystemMeta.ofJson_of_lookup fun key hkey =>
      (hlookup key (List.mem_append_left _ hkey)).trans (htypes key hkey)
  refine ⟨hown, hall, ?_⟩
  rw [Meta.ofJson, Meta.ofJson, hown, hall, ok_bind, ok_bind, system_user]
  cases huser : m.user with
  | none => rfl
  | some u =>
    have hkey : u.jsonKey ∈ m.ownKeys := by
      rw [ownKeys, huser]
      exact List.mem_append_right _ (List.mem_singleton.mpr rfl)
    have hget : (Json.object all).get? u.jsonKey = (Json.object own).get? u.jsonKey :=
      hlookup u.jsonKey hkey
    rw [Option.map_some]
    dsimp only
    rw [u.readPayload_congr hget]

/-- Reading the metadata takes nothing but its own elements. -/
theorem Meta.ofXml_congr {n n' : Node} (h : ∀ name ∈ ownTags, n'.child? name = n.child? name) :
    Meta.ofXml n' = Meta.ofXml n := by
  have hdata := h dataTypeKey (by decide)
  have hcontent := h dataContentTypeKey (by decide)
  have htype := h metaTypeKey (by decide)
  have hmeta := h metaContentTypeKey (by decide)
  have hpayload := h metaPayloadKey (by decide)
  unfold ofXml readUser requiredText
  rw [hdata, hcontent, htype, hmeta, hpayload]

/-- **Foreign children do not change the metadata that is read.** -/
theorem Meta.ofXml_of_among {m : Meta} {n n' : Node} (hown : n.children = m.toXml.children)
    (hamong : Among (Content.Foreign ownTags) n.children n'.children) :
    Meta.ofXml n' = Meta.ofXml n := by
  have hnodup : (n.elements.map (·.name)).Nodup := by
    rw [Node.elements, hown, ← Node.elements, toXml_eq_ofElements, Node.elements_ofElements]
    cases m.user with
    | none => exact (by decide : [dataTypeKey, dataContentTypeKey].Nodup)
    | some u => exact (by decide : (reservedKeys ++ [metaPayloadKey]).Nodup)
  exact ofXml_congr fun name hname => Node.child?_of_among hamong hnodup hname

/-! ## Envelopes -/

namespace Event

/-- The fields of an envelope. -/
def ownFields : List String :=
  [idField, typeField, dataField, metadataField]

/-- What becomes of the JSON of an envelope where others add members to the object of the metadata
and to that of the envelope, and put the members of both in any order. -/
inductive PaddedJson (e : Event) : Json → Json → Prop
  | intro {before after own all members : List (String × Json)} :
    Among (fun m => m.1 ∉ e.metadata.ownKeys) own all →
    Among (fun m => m.1 ∉ ownFields) (before ++ (metadataField, .object all) :: after) members →
      PaddedJson e (.object (before ++ (metadataField, .object own) :: after)) (.object members)

/-- What becomes of the element of an envelope where others add elements, text and CDATA to the
children of the metadata and to those of the envelope, and put the children of both in any
order. -/
inductive PaddedXml : Node → Node → Prop
  | intro {name : String} {attributes metaAttributes : List (String × String)}
      {before after own all children : List Content} :
    Among (Content.Foreign Meta.ownTags) own all →
    Among (Content.Foreign ownFields)
      (before ++ .element metadataField metaAttributes all :: after) children →
      PaddedXml
        { name, attributes
          children := before ++ .element metadataField metaAttributes own :: after }
        { name, attributes, children }

/-- The members of an envelope before the metadata. -/
def leadingMembers (e : Event) (data : Json) : List (String × Json) :=
  [(idField, .string e.id.text), (typeField, .string e.type.text), (dataField, data)]

/-- The children of an envelope before the metadata. -/
def leadingChildren (e : Event) : List Content :=
  [(Meta.textElement idField e.id.text).toContent,
    (Meta.textElement typeField e.type.text).toContent,
    ((Node.named dataField).push e.data.toContent).toContent]

theorem toJson_eq_ok {e : Event} {v : Json} (h : e.toJson = .ok v) :
    ∃ data metadata, e.metadata.toJson = .ok metadata ∧
      v = .object (e.leadingMembers data ++ [(metadataField, metadata)]) := by
  obtain ⟨data, -, hrest⟩ := bind_eq_ok.mp h
  obtain ⟨metadata, hmetadata, hv⟩ := bind_eq_ok.mp hrest
  cases hv
  exact ⟨data, metadata, hmetadata, rfl⟩

/-- The metadata does not stand in for a field before it. -/
theorem lookup_leadingMembers (e : Event) (data m : Json) {field : String}
    (hfield : field ∈ [idField, typeField, dataField]) :
    Json.lookup field (e.leadingMembers data ++ [(metadataField, m)]) =
      Json.lookup field (e.leadingMembers data) := by
  revert field
  simp [leadingMembers, Json.lookup, idField, typeField, dataField]

/-- An element with the children of an envelope before the metadata, and this metadata. -/
def withMetadata (e : Event) (attributes : List (String × String)) (m : Node) : Node :=
  { name := element, attributes, children := e.leadingChildren ++ [m.toContent] }

/-- The metadata does not stand in for a field before it. -/
theorem child?_withMetadata (e : Event) {attributes attributes' : List (String × String)}
    {m m' : Node} {field : String} (hfield : field ∈ [idField, typeField, dataField]) :
    (e.withMetadata attributes m).child? field = (e.withMetadata attributes' m').child? field := by
  simp only [List.mem_cons, List.not_mem_nil, or_false] at hfield
  rcases hfield with rfl | rfl | rfl <;> rfl

/-- Reading an envelope takes nothing but its fields. -/
theorem ofJson_congr {v v' m m' : Json}
    (h : ∀ field ∈ [idField, typeField, dataField], v'.get? field = v.get? field)
    (hown : v.get? metadataField = some m) (hall : v'.get? metadataField = some m')
    (hmeta : Meta.ofJson m' = Meta.ofJson m) : Event.ofJson v' = Event.ofJson v := by
  have hid := h idField (by decide)
  have htype := h typeField (by decide)
  have hdata := h dataField (by decide)
  unfold ofJson requiredMember
  rw [hid, htype, hdata, hown, hall]
  simp only [ok_bind, hmeta]

/-- Reading an envelope takes nothing but its elements. -/
theorem ofXml_congr {n n' m m' : Node} (hname : n'.name = n.name)
    (h : ∀ field ∈ [idField, typeField, dataField], n'.child? field = n.child? field)
    (hown : n.child? metadataField = some m) (hall : n'.child? metadataField = some m')
    (hmeta : Meta.ofXml m' = Meta.ofXml m) : Event.ofXml n' = Event.ofXml n := by
  have hid := h idField (by decide)
  have htype := h typeField (by decide)
  have hdata := h dataField (by decide)
  unfold ofXml expectElement requiredChild
  rw [hname, hid, htype, hdata, hown, hall]
  simp only [ok_bind, hmeta]

/-- **Foreign members do not change the envelope that is read from JSON**, nor what its metadata
says about types. -/
theorem ofJson_padded {e : Event} {v v' : Json} (hv : e.toJson = .ok v)
    (hpadded : e.PaddedJson v v') :
    Event.ofJson v' = Event.ofJson v ∧
      ∃ m m', v.get? metadataField = some m ∧ v'.get? metadataField = some m' ∧
        SystemMeta.ofJson m = .ok e.metadata.system ∧
        SystemMeta.ofJson m' = .ok e.metadata.system := by
  obtain ⟨data, metadata, hmetadata, hwritten⟩ := toJson_eq_ok hv
  cases hpadded with
  | @intro before after own all members hmeta hfields =>
    obtain ⟨rfl, rfl, hlast⟩ := eq_of_concat_eq
      (by simp [leadingMembers, idField, typeField, dataField, metadataField])
      (Json.object.inj hwritten).symm
    obtain rfl := (Prod.mk.inj hlast).2
    obtain ⟨hown, hall, hread⟩ := Meta.ofJson_of_among hmetadata hmeta
    have hlookup : ∀ field ∈ ownFields, Json.lookup field members =
        Json.lookup field (e.leadingMembers data ++ [(metadataField, .object all)]) :=
      fun field hfield => Json.lookup_of_among hfields (by decide : ownFields.Nodup) hfield
    have hfound : (Json.object members).get? metadataField = some (.object all) :=
      hlookup metadataField (by decide)
    refine ⟨ofJson_congr (fun field hfield => ?_) rfl hfound hread, _, _, rfl, hfound, hown, hall⟩
    rw [Json.get?, Json.get?, hlookup field (List.mem_append_left [metadataField] hfield),
      e.lookup_leadingMembers data _ hfield, e.lookup_leadingMembers data _ hfield]

/-- **Foreign children do not change the envelope that is read from XML.** -/
theorem ofXml_padded {e : Event} {n : Node} (hpadded : PaddedXml e.toXml n) :
    Event.ofXml n = Event.ofXml e.toXml := by
  have hwritten : e.toXml = e.withMetadata [] e.metadata.toXml := rfl
  generalize e.toXml = written at hpadded hwritten ⊢
  cases hpadded with
  | @intro name attributes metaAttributes before after own all children hmeta hfields =>
    obtain ⟨rfl, -, hchildren⟩ := Node.mk.inj hwritten
    obtain ⟨rfl, rfl, hlast⟩ := eq_of_concat_eq
      (by simp [leadingChildren, Node.toContent, Meta.textElement, Node.push, Node.named,
        Node.withText, idField, typeField, dataField, metadataField]) hchildren.symm
    obtain ⟨-, -, hown⟩ := Content.element.inj hlast
    let m : Node := ⟨metadataField, metaAttributes, own⟩
    let m' : Node := ⟨metadataField, metaAttributes, all⟩
    have hnodup : ((e.withMetadata attributes m').elements.map (·.name)).Nodup :=
      (by decide : ownFields.Nodup)
    have hchild : ∀ field ∈ ownFields, Node.child? ⟨element, attributes, children⟩ field =
        (e.withMetadata attributes m').child? field := fun field hfield =>
      Node.child?_of_among hfields hnodup hfield
    show Event.ofXml ⟨element, attributes, children⟩ = Event.ofXml (e.withMetadata attributes m)
    exact ofXml_congr (m := m) rfl
      (fun field hfield => (hchild field (List.mem_append_left [metadataField] hfield)).trans
        (e.child?_withMetadata hfield))
      rfl (hchild metadataField (by decide)) (Meta.ofXml_of_among hown hmeta)

/-- **Whatever is foreign in an envelope is left alone by its readers**, wherever it stands and
whatever it is, and so is the order of what is not. -/
theorem padding_ignored (e : Event) :
    (∀ v v', e.toJson = .ok v → e.PaddedJson v v' →
      Event.ofJson v' = Event.ofJson v ∧
        ∃ m m', v.get? metadataField = some m ∧ v'.get? metadataField = some m' ∧
          SystemMeta.ofJson m = .ok e.metadata.system ∧
          SystemMeta.ofJson m' = .ok e.metadata.system) ∧
    ∀ n, PaddedXml e.toXml n → Event.ofXml n = Event.ofXml e.toXml :=
  ⟨fun _ _ hv hpadded => ofJson_padded hv hpadded, fun _ hpadded => ofXml_padded hpadded⟩

/-- A memo as text, and who took it as JSON. -/
def memo : Event where
  id := .least
  type := ⟨"MemoTaken", by decide +kernel⟩
  data := .text "hi"
  metadata := {
    dataType := Bookshop.note
    contentType := .plainText .utf8
    user := some {
      type := Bookshop.audit
      contentType := .json .utf8
      payload := .json (.object [("user", .string "jdoe")])
      fits := by decide +kernel
      admitted := by decide +kernel } }
  fits := by decide +kernel

/-- The members of the metadata of the memo. -/
def memoMembers : List (String × Json) :=
  memo.metadata.system.members ++ [("Audit", .object [("user", .string "jdoe")])]

/-- The memo from the last field to the first, with base64 text next to who took it. -/
def paddedMemo : Json :=
  .object (("Sequence", .null) ::
    (metadataField, .object ((base64Tag, .string "AQID") :: memoMembers.reverse)) ::
    (memo.leadingMembers (.string "hi")).reverse)

/-- The same as XML, with a line break at the start. -/
def paddedMemoXml : Node :=
  { name := element, attributes := []
    children := .text "\n" :: .element metadataField [] (.element base64Tag [] [.text "AQID"] ::
      memo.metadata.toXml.children.reverse) :: memo.leadingChildren.reverse }

/-- Base64 text next to who took the memo is left alone. -/
theorem padding_ignored_memo :
    (∃ v, memo.toJson = .ok v ∧ memo.PaddedJson v paddedMemo ∧
      Event.ofJson paddedMemo = .ok memo.readBack) ∧
    PaddedXml memo.toXml paddedMemoXml ∧ Event.ofXml paddedMemoXml = .ok memo.readBack := by
  have hwritten : memo.toJson = .ok (.object
      (memo.leadingMembers (.string "hi") ++ [(metadataField, .object memoMembers)])) := by
    have hmembers : Json.insert "Audit" (.object [("user", .string "jdoe")])
        memo.metadata.system.members = memoMembers := rfl
    rw [← hmembers]
    rfl
  have hjson := @PaddedJson.intro memo (memo.leadingMembers (.string "hi")) []
    memoMembers ((base64Tag, .string "AQID") :: memoMembers.reverse) _
    ⟨[(base64Tag, .string "AQID")], by decide,
      ((List.reverse_perm memoMembers).cons _).trans (List.perm_append_singleton _ _).symm⟩
    ⟨[("Sequence", .null)], by decide, List.reverse_perm (_ ++ _)⟩
  have hxml := @PaddedXml.intro element [] [] memo.leadingChildren []
    memo.metadata.toXml.children (.element base64Tag [] [.text "AQID"] ::
      memo.metadata.toXml.children.reverse) paddedMemoXml.children
    ⟨[.element base64Tag [] [.text "AQID"]], by simp [Content.Foreign]; decide,
      ((List.reverse_perm _).cons _).trans (List.perm_append_singleton _ _).symm⟩
    ⟨[.text "\n"], by simp [Content.Foreign], by decide⟩
  have hread := ofJson_toJson (by decide) (by decide) hwritten
  have hreadXml : Event.ofXml memo.toXml = .ok memo.readBack := by
    rw [← ofXml_norm (e := memo) (by decide) (by decide) (by decide)]
    exact congrArg Event.ofXml (by decide)
  exact ⟨⟨_, hwritten, hjson, ((padding_ignored memo).1 _ _ hwritten hjson).1.trans hread⟩, hxml,
    ((padding_ignored memo).2 _ hxml).trans hreadXml⟩

end Event

end EventWire

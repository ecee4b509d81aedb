import EventWire.Proofs.Json.Read
import EventWire.Proofs.Payload.ReadBack
import EventWire.Proofs.Xml.Readable

/-!
# Payloads that were read

A payload is read from text, from base64, from JSON, or from an element, and it is the reader
of its kind that says what it can be (`Payload.AsRead`): a tree is as the XML reader leaves it,
and base64 is the text of bytes. JSON that is read from text is also bounded. So another
reading changes nothing but texts in trees (`AsRead.readBack_eq_self_iff`).
-/

namespace EventWire

open Xml (Node TagTest)

/-! ## Trees of payloads -/

namespace Payload

/-- The tree, if XML is what the payload holds. -/
def tree? : Payload → Option Node
  | .xml n => some n
  | _ => none

theorem forall_mem_none {P : Node → Prop} : ∀ n ∈ (none : Option Node), P n :=
  fun n h => absurd h (Option.not_mem_none n)

theorem forall_tree?_xml {P : Node → Prop} {n : Node} :
    (∀ m ∈ (Payload.xml n).tree?, P m) ↔ P n := by
  constructor
  · exact fun h => h n rfl
  · rintro h m ⟨⟩
    exact h

theorem eq_xml_of_mem_tree? {p : Payload} {n : Node} (h : n ∈ p.tree?) : p = .xml n := by
  cases p with
  | xml m =>
    cases h
    rfl
  | _ => cases h

section Writing

variable {p : Payload} {q : TagTest}

/-- The tags of a payload are those of its tree, and that of base64. -/
theorem every_toContent_iff (hbare : q base64Tag [] = true) :
    p.toContent.every q = true ↔ ∀ n ∈ p.tree?, n.every q = true := by
  cases p with
  | json v => exact iff_of_true rfl forall_mem_none
  | xml n => exact (forall_tree?_xml (P := fun n => n.every q = true)).symm
  | text s => exact iff_of_true rfl forall_mem_none
  | binary b =>
    exact iff_of_true (Node.every_push.mpr ⟨Node.every_named hbare, rfl⟩) forall_mem_none

/-- **A payload is written as JSON exactly if the names in its tree are valid.** -/
theorem exists_toJson_iff :
    (∃ v, p.toJson = .ok v) ↔ ∀ n ∈ p.tree?, n.every Xml.validName = true := by
  cases p with
  | json v => exact iff_of_true ⟨v, rfl⟩ forall_mem_none
  | xml n =>
    rw [forall_tree?_xml, ← Node.exists_write_iff, toJson]
    cases n.write with
    | error e =>
      constructor
      · rintro ⟨v, ⟨⟩⟩
      · rintro ⟨s, ⟨⟩⟩
    | ok s => exact iff_of_true ⟨_, rfl⟩ ⟨s, rfl⟩
  | text s => exact iff_of_true ⟨_, rfl⟩ forall_mem_none
  | binary b => exact iff_of_true ⟨_, rfl⟩ forall_mem_none

end Writing

/-! ## Another reading -/

theorem tree?_readBack (p : Payload) : p.readBack.tree? = p.tree?.map Node.norm := by
  cases p with
  | _ => rfl

/-- What is so of all payloads that are read: trees are as read, and base64 is the text of its
bytes. JSON has the property it is read with. -/
inductive AsRead (ofJson : Json → Prop) : Payload → Prop
  | json {v : Json} (h : ofJson v) : AsRead ofJson (.json v)
  | xml {n : Node} (h : n.AsRead) : AsRead ofJson (.xml n)
  | text (s : String) : AsRead ofJson (.text s)
  | bytes (bs : Bytes) : AsRead ofJson (.binary (.ofBytes bs))

namespace AsRead

variable {J : Json → Prop} {p : Payload}

theorem decodes (h : p.AsRead J) : p.decodes = true := by
  cases h with
  | json h => rfl
  | xml h => rfl
  | text s => rfl
  | bytes bs => exact Option.isSome_iff_exists.mpr ⟨bs, Base64.decode?_encode bs⟩

/-- **Another reading joins texts and changes nothing else.** -/
theorem readBack_eq_self_iff (h : p.AsRead J) :
    p.readBack = p ↔ ∀ n ∈ p.tree?, n.textsApart = true := by
  cases h with
  | json h => exact iff_of_true rfl forall_mem_none
  | xml h =>
    rw [forall_tree?_xml, ← h.norm_eq_self_iff, readBack]
    exact ⟨fun e => Payload.xml.inj e, fun e => congrArg _ e⟩
  | text s => exact iff_of_true rfl forall_mem_none
  | bytes bs => exact iff_of_true (readBack_ofBytes bs) forall_mem_none

theorem tree (h : p.AsRead J) : ∀ n ∈ p.tree?, n.AsRead := by
  cases h with
  | json h => exact forall_mem_none
  | xml h => exact forall_tree?_xml.mpr h
  | text s => exact forall_mem_none
  | bytes bs => exact forall_mem_none

theorem xmlReads (h : p.AsRead J) (hquotes : ∀ n ∈ p.tree?, n.every Xml.closedQuotes = true) :
    p.XmlReads := by
  rintro n rfl s hwrite
  exact (h.tree n rfl).parse_write (hquotes n rfl) hwrite

/-- JSON that was read from text is legible if its doubles are read as they are printed. -/
theorem jsonLegible (h : p.AsRead (Json.Bounded Json.maxDepth))
    (hdoubles : p.doublesReadBack = true) : p.jsonLegible = true := by
  cases h with
  | json h =>
    show Json.legible _ = true
    rw [Json.legible, Bool.and_eq_true, Bool.and_eq_true, decide_eq_true_eq]
    exact ⟨⟨h.depth, h.keys⟩, hdoubles⟩
  | xml h => rfl
  | text s => rfl
  | bytes bs => rfl

end AsRead

/-! ## Readers of payloads -/

/-- Base64 that is read is the text of bytes. -/
theorem readBase64_eq_ok {s : String} {p : Payload} (h : readBase64 s = .ok p) :
    ∃ bs, p = .binary (.ofBytes bs) := by
  unfold readBase64 at h
  split at h
  · next bs b hread =>
    cases h
    have hdecode : Base64.decode? (Base64.ofText s).text = some bs := by
      rw [← Base64.content?_eq_decode?, Base64.content?, hread]
    have hback := readBack_of_decode? hdecode
    rw [readBack, hread] at hback
    exact ⟨bs, hback⟩
  · cases h

theorem asRead_readBase64 {J : Json → Prop} {s : String} {p : Payload}
    (h : readBase64 s = .ok p) : p.AsRead J := by
  obtain ⟨bs, rfl⟩ := readBase64_eq_ok h
  exact .bytes bs

theorem asRead_ofText {J : Json → Prop} (hjson : ∀ s v, Json.parse? s = some v → J v)
    {kind : PayloadKind} {s : String} {p : Payload} (h : ofText kind s = .ok p) : p.AsRead J := by
  cases kind with
  | json =>
    obtain ⟨v, hv, rfl⟩ := ofText_json_eq_ok.mp h
    exact .json (hjson s v hv)
  | xml =>
    obtain ⟨n, hn, rfl⟩ := ofText_xml_eq_ok.mp h
    exact .xml (Node.asRead_of_parse hn)
  | text =>
    cases h
    exact .text s
  | binary =>
    cases h
    exact .text s

theorem asRead_fromBytes {bs : Bytes} {m : MediaType} {p : Payload} (h : fromBytes bs m = .ok p) :
    p.AsRead (Json.Bounded Json.maxDepth) := by
  rcases fromBytes_eq_ok h with ⟨-, rfl⟩ | ⟨-, s, htext⟩
  · exact .bytes bs
  · exact asRead_ofText (fun _ _ => Json.bounded_of_parse?) htext

/-- What is read from JSON by a content type is of its kind. -/
theorem fits_of_ofJson {v : Json} {m : MediaType} {field : String} {p : Payload}
    (h : ofJson v m field = .ok p) : p.fits m = true := by
  refine decide_eq_true ?_
  unfold ofJson at h
  split at h
  · next hkind =>
    cases h
    exact hkind
  · next hkind =>
    split at h
    · obtain ⟨s, -, hread⟩ := bind_eq_ok.mp h
      obtain ⟨bs, rfl⟩ := readBase64_eq_ok hread
      exact hkind
    · cases h
  · next hbinary =>
    obtain ⟨s, -, hread⟩ := bind_eq_ok.mp h
    exact kind_of_ofText hbinary hread

/-- What is read from an element by a content type is of its kind. -/
theorem fits_of_ofXml {parent : Node} {m : MediaType} {field : String} {p : Payload}
    (h : ofXml parent m field = .ok p) : p.fits m = true := by
  refine decide_eq_true ?_
  unfold ofXml at h
  split at h
  · next hkind => exact hkind.trans (kind_of_ofText PayloadKind.noConfusion h)
  · next hkind =>
    cases h
    exact hkind
  · next hkind =>
    split at h
    · cases h
      exact hkind
    · cases h
  · next hkind =>
    split at h
    · obtain ⟨bs, rfl⟩ := readBase64_eq_ok h
      exact hkind
    · cases h

theorem asRead_ofJson {v : Json} {m : MediaType} {field : String} {p : Payload}
    (h : ofJson v m field = .ok p) : p.AsRead fun _ => True := by
  unfold ofJson at h
  split at h
  · cases h
    exact .json trivial
  · split at h
    · obtain ⟨s, -, hread⟩ := bind_eq_ok.mp h
      exact asRead_readBase64 hread
    · cases h
  · obtain ⟨s, -, hread⟩ := bind_eq_ok.mp h
    exact asRead_ofText (fun _ _ _ => trivial) hread

/-- A payload that was read and comes back from its JSON leaves no quote in its tree open. -/
theorem AsRead.closedQuotes_of_ofJson {J : Json → Prop} {p : Payload} (h : p.AsRead J) {v : Json}
    {m : MediaType} {field : String} (hwrite : p.toJson = .ok v) (hread : ofJson v m field = .ok p) :
    ∀ n ∈ p.tree?, n.every Xml.closedQuotes = true := by
  cases h with
  | json h => exact forall_mem_none
  | text s => exact forall_mem_none
  | bytes bs => exact forall_mem_none
  | @xml n h =>
    refine forall_tree?_xml.mpr ?_
    have hkind := kind_of_fits (fits_of_ofJson hread)
    rw [toJson] at hwrite
    split at hwrite
    · next s hs =>
      cases hwrite
      rw [ofJson, hkind] at hread
      obtain ⟨u, hu, hparse⟩ := bind_eq_ok.mp hread
      cases hu
      obtain ⟨m, hm, heq⟩ := ofText_xml_eq_ok.mp hparse
      cases heq
      exact h.closedQuotes_of_parse_write hs hm
    · cases hwrite

theorem asRead_ofXml {parent : Node} (hparent : parent.AsRead) {m : MediaType} {field : String}
    {p : Payload} (h : ofXml parent m field = .ok p) :
    p.AsRead (Json.Bounded Json.maxDepth) := by
  unfold ofXml at h
  split at h
  · exact asRead_ofText (fun _ _ => Json.bounded_of_parse?) h
  · cases h
    exact .text _
  · split at h
    · next n rest hfirst =>
      cases h
      exact .xml (hparent.of_mem_elements (hfirst ▸ List.mem_cons_self ..))
    · cases h
  · split at h
    · exact asRead_readBase64 h
    · cases h

end Payload

end EventWire

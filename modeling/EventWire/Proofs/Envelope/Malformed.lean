import EventWire.Envelope.Events
import EventWire.Proofs.Payload.AsRead
import Mathlib.Data.List.Basic

/-!
# Which unreadable envelopes are malformed

`EnvelopeError.isMalformed` is true when an envelope or one of its fields cannot be read, so it
should be true of whatever a reader fails with. A reader takes one field after the other, and
fails at the first that is missing, is of the wrong form, or has a text that is refused: as an
identifier, which is the id of the event or the name of a type, as a content type, or as a
payload. All of that is malformed but a refused identifier. So what a reader fails with is not
malformed only if an identifier is the first field that is refused (`Blames`, one lemma for each
reader), and it is not malformed if that is so (`ofJson_of_refused`, `ofXml_of_refused`).
`isMalformed_iff` is the result for all readers.
-/

namespace EventWire

open Xml (Node)

/-! ## Identifiers that are refused -/

/-- The text under a key. -/
def Json.textAt? (key : String) (v : Json) : Option String :=
  (v.get? key).bind text?

/-- The child element of a name. -/
def Xml.Node.part? (name : String) (n : Node) : Option Node :=
  n.child? name

/-- The text of the child element of a name. -/
def Xml.Node.textAt? (name : String) (n : Node) : Option String :=
  (n.part? name).map Node.text

section Refused

-- JSON and XML differ in how texts and parts are found, and in nothing else.
variable {α β : Type} (textAt? : String → α → Option String) (part? : String → α → Option α)

/-- There is a text under a key, and it is read. -/
def Reads (v : α) (key : String) (read : String → Except EnvelopeError β) : Prop :=
  ∃ s b, textAt? key v = some s ∧ read s = .ok b

/-- There is a text under a key, and it is refused as an identifier. -/
def Refuses (v : α) (key : String) (read : String → Except EnvelopeError β) (i : IdError) : Prop :=
  ∃ s, textAt? key v = some s ∧ read s = .error (.id i)

/-- Of the fields of the metadata, the first that is refused is the name of a type. -/
inductive Meta.Refused (v : α) (i : IdError) : Prop
  | dataType (h : Refuses textAt? v dataTypeKey readType i)
  | metaType (hdata : Reads textAt? v dataTypeKey readType)
      (hcontent : Reads textAt? v dataContentTypeKey readContentType)
      (h : Refuses textAt? v metaTypeKey readType i)

/-- Of the fields of an envelope, the first that is refused is an identifier. -/
inductive Event.Refused (v : α) (i : IdError) : Prop
  | id (h : Refuses textAt? v idField readId i)
  | type (hid : Reads textAt? v idField readId) (h : Refuses textAt? v typeField readEventType i)
  | metadata {w : α} (hid : Reads textAt? v idField readId)
      (htype : Reads textAt? v typeField readEventType)
      (hpart : part? metadataField v = some w) (h : Meta.Refused textAt? w i)

end Refused

/-- An identifier is the first that is refused in the JSON of an envelope. -/
def Event.RefusedInJson (v : Json) (i : IdError) : Prop :=
  Event.Refused Json.textAt? Json.get? v i

/-- An identifier is the first that is refused in the element of an envelope. -/
def Event.RefusedInXml (n : Node) (i : IdError) : Prop :=
  n.name = element ∧ Event.Refused Node.textAt? Node.part? n i

/-- An identifier is the first that is refused in one of several envelopes, and the envelopes
before it are read. -/
def Events.RefusedAmong {α : Type} (read : α → Except EnvelopeError Event)
    (refused : α → IdError → Prop) (as : List α) (i : IdError) : Prop :=
  ∃ before a after, as = before ++ a :: after ∧ (∀ b ∈ before, ∃ e, read b = .ok e) ∧ refused a i

/-! ## What a reader can be blamed for -/

/-- Whatever a reader fails with is malformed, or says that an identifier is refused. -/
structure Blames {α : Type} (refused : IdError → Prop) (x : Except EnvelopeError α) : Prop where
  cause : ∀ e, x = .error e → e.isMalformed = true ∨ ∃ i, refused i ∧ e = .id i

namespace Blames

variable {α β : Type} {refused : IdError → Prop} {x : Except EnvelopeError α}

theorem ok (a : α) : Blames refused (.ok a : Except EnvelopeError α) :=
  ⟨fun _ h => nomatch h⟩

theorem malformed {e : EnvelopeError} (h : e.isMalformed = true) :
    Blames refused (.error e : Except EnvelopeError α) := by
  refine ⟨fun e' he' => ?_⟩
  cases he'
  exact Or.inl h

theorem mono {wider : IdError → Prop} (hx : Blames refused x) (h : ∀ i, refused i → wider i) :
    Blames wider x := by
  refine ⟨fun e he => ?_⟩
  rcases hx.cause e he with hmalformed | ⟨i, hi, rfl⟩
  · exact Or.inl hmalformed
  · exact Or.inr ⟨i, h i hi, rfl⟩

/-- Two steps are blamed for what one of them is blamed for; the second is taken only after the
first. -/
theorem bind {f : α → Except EnvelopeError β} (hx : Blames refused x)
    (hf : ∀ a, x = .ok a → Blames refused (f a)) : Blames refused (x >>= f) := by
  refine ⟨fun e he => ?_⟩
  rcases bind_eq_error.mp he with hfirst | ⟨a, ha, hsecond⟩
  · exact hx.cause e hfirst
  · exact (hf a ha).cause e hsecond

theorem mapError {ε : Type} {y : Except ε α} {f : ε → EnvelopeError}
    (h : ∀ e, (f e).isMalformed = true) : Blames refused (y.mapError f) := by
  refine ⟨fun e he => ?_⟩
  obtain ⟨e', -, rfl⟩ := mapError_eq_error.mp he
  exact Or.inl (h e')

/-- A check of an identifier fails for nothing but the identifier. -/
theorem identifier {y : Except IdError α}
    (h : ∀ i, y.mapError EnvelopeError.id = .error (.id i) → refused i) :
    Blames refused (y.mapError .id) := by
  refine ⟨fun e he => ?_⟩
  obtain ⟨i, -, rfl⟩ := mapError_eq_error.mp he
  exact Or.inr ⟨i, h i he, rfl⟩

/-- What a reader fails with is not malformed exactly if an identifier is refused, if that makes
it fail. -/
theorem iff (hx : Blames refused x) (hfails : ∀ i, refused i → x = .error (.id i))
    {e : EnvelopeError} :
    x = .error e ∧ e.isMalformed = false ↔ ∃ i, refused i ∧ e = .id i := by
  constructor
  · intro h
    obtain ⟨he, hfalse⟩ := h
    rcases hx.cause e he with htrue | hrefused
    · rw [hfalse] at htrue
      cases htrue
    · exact hrefused
  · intro h
    obtain ⟨i, hi, rfl⟩ := h
    exact ⟨hfails i hi, rfl⟩

end Blames

/-! ## Readers of fields and payloads -/

section Readers

variable {refused : IdError → Prop}

theorem blames_stringOf (field : String) (v : Json) : Blames refused (stringOf field v) := by
  unfold stringOf
  split
  · exact .ok _
  · exact .malformed rfl

theorem blames_readContentType (s : String) : Blames refused (readContentType s) :=
  .mapError fun _ => rfl

theorem blames_readBase64 (s : String) : Blames refused (readBase64 s) := by
  unfold readBase64
  split
  · exact .ok _
  · exact .malformed rfl

theorem Payload.blames_ofText (kind : PayloadKind) (s : String) :
    Blames refused (ofText kind s) := by
  unfold ofText
  split
  · split
    · exact .ok _
    · exact .malformed rfl
  · split
    · exact .ok _
    · exact .malformed rfl
  · exact .ok _

theorem Payload.blames_ofJson (v : Json) (m : MediaType) (field : String) :
    Blames refused (ofJson v m field) := by
  unfold ofJson
  split
  · exact .ok _
  · split
    · exact (blames_stringOf ..).bind fun s _ => blames_readBase64 s
    · exact .malformed rfl
  · exact (blames_stringOf ..).bind fun s _ => blames_ofText _ s

theorem Payload.blames_ofXml (parent : Node) (m : MediaType) (field : String) :
    Blames refused (ofXml parent m field) := by
  unfold ofXml
  split
  · exact blames_ofText ..
  · exact .ok _
  · split
    · exact .ok _
    · exact .malformed rfl
  · split
    · exact blames_readBase64 _
    · exact .malformed rfl

/-- A payload that was read by its content type fits it, so at most the name is at fault. -/
theorem UserMeta.blames_ofParts {t : DataType} {m : MediaType} {p : Payload}
    (h : p.fits m = true) : Blames refused (UserMeta.ofParts t m p) := by
  unfold ofParts
  rw [dif_pos h]
  split
  · exact .ok _
  · split
    · exact .malformed rfl
    · exact .malformed rfl

theorem Event.blames_ofParts {id : EventId} {t : EventType} {data : Payload} {m : Meta}
    (h : data.fits m.contentType = true) : Blames refused (Event.ofParts id t data m) := by
  unfold ofParts
  rw [dif_pos h]
  exact .ok _

end Readers

/-! ## JSON -/

theorem stringOf_eq_ok {field s : String} {v : Json} :
    stringOf field v = .ok s ↔ v.text? = some s := by
  cases v with
  | string t =>
    exact ⟨fun h => congrArg some (Except.ok.inj h), fun h => congrArg _ (Option.some.inj h)⟩
  | _ => exact ⟨fun h => (nomatch h), fun h => (nomatch h)⟩

/-- The text under a key is what the string says that is found there. -/
theorem Json.textAt?_eq_some (field : String) {key s : String} {v : Json} :
    v.textAt? key = some s ↔ ∃ w, v.get? key = some w ∧ stringOf field w = .ok s := by
  rw [textAt?, Option.bind_eq_some_iff]
  exact exists_congr fun w => and_congr_right fun _ => stringOf_eq_ok.symm

namespace SystemMeta

variable {refused : IdError → Prop} {members : List (String × Json)}

theorem blames_requiredString (key : String) : Blames refused (requiredString members key) := by
  unfold requiredString
  split
  · exact blames_stringOf ..
  · exact .malformed rfl

theorem requiredString_eq_ok {key s : String} :
    requiredString members key = .ok s ↔ (Json.object members).textAt? key = some s := by
  rw [Json.textAt?_eq_some key, requiredString, Json.get?]
  cases Json.lookup key members with
  | none => simp
  | some w => simp

theorem blames_readUser (hdata : Reads Json.textAt? (.object members) dataTypeKey readType)
    (hcontent : Reads Json.textAt? (.object members) dataContentTypeKey readContentType) :
    Blames (Meta.Refused Json.textAt? (.object members)) (readUser members) := by
  unfold readUser
  split
  · exact .ok _
  · next v hv =>
    refine (blames_stringOf ..).bind fun name hname => ?_
    have htext : (Json.object members).textAt? metaTypeKey = some name :=
      (Json.textAt?_eq_some metaTypeKey).mpr ⟨v, hv, hname⟩
    refine (Blames.identifier fun i hi => .metaType hdata hcontent ⟨name, htext, hi⟩).bind
      fun t _ => ?_
    refine (blames_requiredString _).bind fun print _ => ?_
    exact (blames_readContentType print).bind fun m _ => .ok _

theorem blames_ofJson (v : Json) :
    Blames (Meta.Refused Json.textAt? v) (SystemMeta.ofJson v) := by
  unfold ofJson
  split
  · refine (blames_requiredString _).bind fun name hname => ?_
    have htext := requiredString_eq_ok.mp hname
    refine (Blames.identifier fun i hi => .dataType ⟨name, htext, hi⟩).bind fun t ht => ?_
    refine (blames_requiredString _).bind fun print hprint => ?_
    refine (blames_readContentType print).bind fun m hm => ?_
    have huser := blames_readUser ⟨name, t, htext, ht⟩
      ⟨print, m, requiredString_eq_ok.mp hprint, hm⟩
    exact huser.bind fun user _ => .ok _
  · exact .malformed rfl

/-- The types of the metadata are refused for the name of one of them. -/
theorem ofJson_of_refused {v : Json} {i : IdError} (h : Meta.Refused Json.textAt? v i) :
    SystemMeta.ofJson v = .error (.id i) := by
  cases v with
  | object members =>
    rw [ofJson]
    cases h with
    | dataType h =>
      obtain ⟨name, hname, hi⟩ := h
      rw [requiredString_eq_ok.mpr hname, ok_bind, hi, error_bind]
    | metaType hdata hcontent h =>
      obtain ⟨name, t, hname, ht⟩ := hdata
      obtain ⟨print, m, hprint, hm⟩ := hcontent
      obtain ⟨user, huser, hi⟩ := h
      obtain ⟨w, hw, hstring⟩ := (Json.textAt?_eq_some metaTypeKey).mp huser
      have hrefused : readUser members = .error (.id i) := by
        have hlookup : Json.lookup metaTypeKey members = some w := hw
        rw [readUser, hlookup]
        dsimp only
        rw [hstring, ok_bind, hi, error_bind]
      rw [requiredString_eq_ok.mpr hname, ok_bind, ht, ok_bind, requiredString_eq_ok.mpr hprint,
        ok_bind, hm, ok_bind, hrefused, error_bind]
  | _ =>
    -- Nothing else has texts under keys.
    cases h with
    | dataType h => obtain ⟨_, h, -⟩ := h; cases h
    | metaType hdata hcontent h => obtain ⟨_, h, -⟩ := h; cases h

end SystemMeta

namespace Meta

variable {refused : IdError → Prop}

theorem blames_readPayload (v : Json) (t : DataType) (m : MediaType) :
    Blames refused (readPayload v t m) := by
  unfold readPayload
  split
  · split
    · exact (blames_stringOf ..).bind fun s _ => blames_readBase64 s
    · exact .malformed rfl
  · split
    · exact Payload.blames_ofJson ..
    · exact .malformed rfl

theorem fits_of_readPayload {v : Json} {t : DataType} {m : MediaType} {p : Payload}
    (h : readPayload v t m = .ok p) : p.fits m = true := by
  unfold readPayload at h
  split at h
  · next hbinary =>
    split at h
    · obtain ⟨s, -, hread⟩ := bind_eq_ok.mp h
      obtain ⟨bs, rfl⟩ := Payload.readBase64_eq_ok hread
      exact decide_eq_true hbinary
    · cases h
  · split at h
    · exact Payload.fits_of_ofJson h
    · cases h

theorem blames_ofJson (v : Json) : Blames (Meta.Refused Json.textAt? v) (Meta.ofJson v) := by
  unfold ofJson
  refine (SystemMeta.blames_ofJson v).bind fun s _ => ?_
  split
  · exact .ok _
  · refine (blames_readPayload ..).bind fun payload hpayload => ?_
    exact (UserMeta.blames_ofParts (fits_of_readPayload hpayload)).bind fun u _ => .ok _

end Meta

namespace Event

variable {refused : IdError → Prop} {v : Json} {α : Type}

/-- What is not read from a member is malformed if there is none. -/
theorem blames_requiredMember {key : String} {f : Json → Except EnvelopeError α}
    (hf : ∀ w, v.get? key = some w → Blames refused (f w)) :
    Blames refused (requiredMember v key >>= f) := by
  unfold requiredMember
  split
  · next w hw => exact hf w hw
  · exact .malformed rfl

/-- What is not read from a text is malformed if there is none. -/
theorem blames_text {key : String} {f : String → Except EnvelopeError α}
    (hf : ∀ s, v.textAt? key = some s → Blames refused (f s)) :
    Blames refused (requiredMember v key >>= fun w => stringOf key w >>= f) := by
  refine blames_requiredMember fun w hw => ?_
  refine (blames_stringOf ..).bind fun s hs => ?_
  exact hf s ((Json.textAt?_eq_some key).mpr ⟨w, hw, hs⟩)

/-- **What JSON is not read for is malformed or an identifier.** -/
theorem blames_ofJson (v : Json) : Blames (RefusedInJson v) (Event.ofJson v) := by
  unfold Event.ofJson
  refine blames_text fun idText hidText => ?_
  refine (Blames.identifier fun i hi => .id ⟨idText, hidText, hi⟩).bind fun id hread => ?_
  have hid : Reads Json.textAt? v idField readId := ⟨idText, id, hidText, hread⟩
  refine blames_text fun typeText htypeText => ?_
  refine (Blames.identifier fun i hi => .type hid ⟨typeText, htypeText, hi⟩).bind
    fun type hread => ?_
  have htype : Reads Json.textAt? v typeField readEventType := ⟨typeText, type, htypeText, hread⟩
  refine blames_requiredMember fun w hw => ?_
  have hmeta : Blames (RefusedInJson v) (Meta.ofJson w) :=
    (Meta.blames_ofJson w).mono fun i => .metadata hid htype hw
  refine hmeta.bind fun metadata _ => ?_
  refine blames_requiredMember fun dataMember _ => ?_
  refine (Payload.blames_ofJson ..).bind fun data hdata => ?_
  exact blames_ofParts (Payload.fits_of_ofJson hdata)

theorem requiredMember_of_get? {w : Json} {key : String} (h : v.get? key = some w) :
    requiredMember v key = .ok w := by
  rw [requiredMember, h]

theorem requiredMember_of_textAt? {key s : String} (hs : v.textAt? key = some s)
    (f : String → Except EnvelopeError α) :
    (requiredMember v key >>= fun w => stringOf key w >>= f) = f s := by
  obtain ⟨w, hw, hstring⟩ := (Json.textAt?_eq_some key).mp hs
  rw [requiredMember_of_get? hw, ok_bind, hstring, ok_bind]

/-- **JSON is refused for an identifier if no field before it is refused.** -/
theorem ofJson_of_refused {i : IdError} (h : RefusedInJson v i) :
    Event.ofJson v = .error (.id i) := by
  rw [Event.ofJson]
  cases h with
  | id h =>
    obtain ⟨s, hs, hi⟩ := h
    rw [requiredMember_of_textAt? hs, hi, error_bind]
  | type hid h =>
    obtain ⟨idText, id, hidText, hid⟩ := hid
    obtain ⟨s, hs, hi⟩ := h
    rw [requiredMember_of_textAt? hidText, hid, ok_bind, requiredMember_of_textAt? hs, hi,
      error_bind]
  | metadata hid htype hpart h =>
    obtain ⟨idText, id, hidText, hid⟩ := hid
    obtain ⟨typeText, type, htypeText, htype⟩ := htype
    rw [requiredMember_of_textAt? hidText, hid, ok_bind, requiredMember_of_textAt? htypeText, htype,
      ok_bind, requiredMember_of_get? hpart, ok_bind, Meta.ofJson, SystemMeta.ofJson_of_refused h,
      error_bind, error_bind]

end Event

/-! ## XML -/

namespace Meta

variable {refused : IdError → Prop} {n : Node}

theorem blames_requiredText (name : String) : Blames refused (requiredText n name) := by
  unfold requiredText
  split
  · exact .ok _
  · exact .malformed rfl

theorem requiredText_eq_ok {name s : String} :
    requiredText n name = .ok s ↔ n.textAt? name = some s := by
  rw [requiredText, Node.textAt?, Node.part?]
  cases n.child? name with
  | none => simp
  | some e => simp

theorem blames_readUser (hdata : Reads Node.textAt? n dataTypeKey readType)
    (hcontent : Reads Node.textAt? n dataContentTypeKey readContentType) :
    Blames (Meta.Refused Node.textAt? n) (readUser n) := by
  unfold readUser
  split
  · exact .ok _
  · next e he =>
    have htext : n.textAt? metaTypeKey = some e.text := congrArg (Option.map Node.text) he
    refine (Blames.identifier fun i hi => .metaType hdata hcontent ⟨e.text, htext, hi⟩).bind
      fun t _ => ?_
    refine (blames_requiredText _).bind fun print _ => ?_
    refine (blames_readContentType print).bind fun m _ => ?_
    split
    · exact .malformed rfl
    · refine (Payload.blames_ofXml ..).bind fun payload hpayload => ?_
      exact (UserMeta.blames_ofParts (Payload.fits_of_ofXml hpayload)).bind fun u _ => .ok _

theorem blames_ofXml (n : Node) : Blames (Meta.Refused Node.textAt? n) (Meta.ofXml n) := by
  unfold ofXml
  refine (blames_requiredText _).bind fun name hname => ?_
  have htext := requiredText_eq_ok.mp hname
  refine (Blames.identifier fun i hi => .dataType ⟨name, htext, hi⟩).bind fun t ht => ?_
  refine (blames_requiredText _).bind fun print hprint => ?_
  refine (blames_readContentType print).bind fun m hm => ?_
  have huser := blames_readUser ⟨name, t, htext, ht⟩ ⟨print, m, requiredText_eq_ok.mp hprint, hm⟩
  exact huser.bind fun user _ => .ok _

/-- Metadata is refused for the name of a type if no field before it is refused. -/
theorem ofXml_of_refused {i : IdError} (h : Meta.Refused Node.textAt? n i) :
    Meta.ofXml n = .error (.id i) := by
  rw [ofXml]
  cases h with
  | dataType h =>
    obtain ⟨name, hname, hi⟩ := h
    rw [requiredText_eq_ok.mpr hname, ok_bind, hi, error_bind]
  | metaType hdata hcontent h =>
    obtain ⟨name, t, hname, ht⟩ := hdata
    obtain ⟨print, m, hprint, hm⟩ := hcontent
    obtain ⟨user, huser, hi⟩ := h
    obtain ⟨e, he, rfl⟩ := Option.map_eq_some_iff.mp huser
    have hrefused : readUser n = .error (.id i) := by
      rw [Node.part?] at he
      rw [readUser, he]
      dsimp only
      rw [hi, error_bind]
    rw [requiredText_eq_ok.mpr hname, ok_bind, ht, ok_bind, requiredText_eq_ok.mpr hprint,
      ok_bind, hm, ok_bind, hrefused, error_bind]

end Meta

namespace Event

variable {refused : IdError → Prop} {n : Node} {α : Type}

/-- What is not read from an element is malformed if it has another name. -/
theorem blames_expectElement {name : String} {f : Unit → Except EnvelopeError α}
    (hf : n.name = name → Blames refused (f ())) : Blames refused (expectElement n name >>= f) := by
  unfold expectElement
  split
  · next hname => exact hf hname
  · exact .malformed rfl

/-- What is not read from a child element is malformed if there is none. -/
theorem blames_requiredChild {key : String} {f : Node → Except EnvelopeError α}
    (hf : ∀ m, n.part? key = some m → Blames refused (f m)) :
    Blames refused (requiredChild n key >>= f) := by
  unfold requiredChild
  split
  · next m hm => exact hf m hm
  · exact .malformed rfl

/-- **What an element is not read for is malformed or an identifier.** -/
theorem blames_ofXml (n : Node) : Blames (RefusedInXml n) (Event.ofXml n) := by
  unfold Event.ofXml
  refine blames_expectElement fun hname => ?_
  refine blames_requiredChild fun idChild hchild => ?_
  have hidText : n.textAt? idField = some idChild.text := congrArg (Option.map Node.text) hchild
  refine (Blames.identifier fun i hi => ⟨hname, .id ⟨_, hidText, hi⟩⟩).bind fun id hread => ?_
  have hid : Reads Node.textAt? n idField readId := ⟨_, id, hidText, hread⟩
  refine blames_requiredChild fun typeChild hchild => ?_
  have htypeText : n.textAt? typeField = some typeChild.text :=
    congrArg (Option.map Node.text) hchild
  refine (Blames.identifier fun i hi => ⟨hname, .type hid ⟨_, htypeText, hi⟩⟩).bind
    fun type hread => ?_
  have htype : Reads Node.textAt? n typeField readEventType := ⟨_, type, htypeText, hread⟩
  refine blames_requiredChild fun m hm => ?_
  have hmeta : Blames (RefusedInXml n) (Meta.ofXml m) :=
    (Meta.blames_ofXml m).mono fun i hi => ⟨hname, .metadata hid htype hm hi⟩
  refine hmeta.bind fun metadata _ => ?_
  refine blames_requiredChild fun dataChild _ => ?_
  refine (Payload.blames_ofXml ..).bind fun data hdata => ?_
  exact blames_ofParts (Payload.fits_of_ofXml hdata)

theorem expectElement_of_name {name : String} (h : n.name = name) :
    expectElement n name = .ok () := by
  rw [expectElement, if_pos h]

theorem requiredChild_of_part? {m : Node} {key : String} (h : n.part? key = some m) :
    requiredChild n key = .ok m := by
  rw [Node.part?] at h
  rw [requiredChild, h]

/-- A field that has a text is there. -/
theorem exists_requiredChild {key s : String} (hs : n.textAt? key = some s) :
    ∃ m, requiredChild n key = .ok m ∧ m.text = s := by
  obtain ⟨m, hm, rfl⟩ := Option.map_eq_some_iff.mp hs
  exact ⟨m, requiredChild_of_part? hm, rfl⟩

/-- **An element is refused for an identifier if no field before it is refused.** -/
theorem ofXml_of_refused {i : IdError} (h : RefusedInXml n i) :
    Event.ofXml n = .error (.id i) := by
  obtain ⟨hname, h⟩ := h
  rw [Event.ofXml, expectElement_of_name hname, ok_bind]
  cases h with
  | id h =>
    obtain ⟨s, hs, hi⟩ := h
    obtain ⟨m, hm, rfl⟩ := exists_requiredChild hs
    rw [hm, ok_bind, hi, error_bind]
  | type hid h =>
    obtain ⟨idText, id, hidText, hid⟩ := hid
    obtain ⟨s, hs, hi⟩ := h
    obtain ⟨idChild, hidChild, rfl⟩ := exists_requiredChild hidText
    obtain ⟨m, hm, rfl⟩ := exists_requiredChild hs
    rw [hidChild, ok_bind, hid, ok_bind, hm, ok_bind, hi, error_bind]
  | metadata hid htype hpart h =>
    obtain ⟨idText, id, hidText, hid⟩ := hid
    obtain ⟨typeText, type, htypeText, htype⟩ := htype
    obtain ⟨idChild, hidChild, rfl⟩ := exists_requiredChild hidText
    obtain ⟨typeChild, htypeChild, rfl⟩ := exists_requiredChild htypeText
    rw [hidChild, ok_bind, hid, ok_bind, htypeChild, ok_bind, htype, ok_bind,
      requiredChild_of_part? hpart, ok_bind, Meta.ofXml_of_refused h, error_bind]

end Event

/-! ## Texts and lists -/

namespace Event

/-- A text is not read for what the envelope in it is not read for. -/
theorem blames_ofJsonText (s : String) :
    Blames (fun i => ∃ v, Json.parse? s = some v ∧ RefusedInJson v i) (ofJsonText s) := by
  unfold ofJsonText
  split
  · next v hv => exact (blames_ofJson v).mono fun i hi => ⟨v, hv, hi⟩
  · exact .malformed rfl

theorem ofJsonText_of_refused {s : String} {i : IdError}
    (h : ∃ v, Json.parse? s = some v ∧ RefusedInJson v i) : ofJsonText s = .error (.id i) := by
  obtain ⟨v, hv, hi⟩ := h
  rw [ofJsonText, hv]
  exact ofJson_of_refused hi

theorem blames_ofXmlText (s : String) :
    Blames (fun i => ∃ n, Node.parse s = .ok n ∧ RefusedInXml n i) (ofXmlText s) := by
  unfold ofXmlText
  split
  · next n hn => exact (blames_ofXml n).mono fun i hi => ⟨n, hn, hi⟩
  · exact .malformed rfl

theorem ofXmlText_of_refused {s : String} {i : IdError}
    (h : ∃ n, Node.parse s = .ok n ∧ RefusedInXml n i) : ofXmlText s = .error (.id i) := by
  obtain ⟨n, hn, hi⟩ := h
  rw [ofXmlText, hn]
  exact ofXml_of_refused hi

end Event

namespace Events

section Among

variable {α : Type} {read : α → Except EnvelopeError Event} {refused : α → IdError → Prop}
  {as : List α}

/-- A list is not read for what one of its envelopes is not read for. -/
theorem blames_mapM (h : ∀ a, Blames (refused a) (read a)) :
    Blames (RefusedAmong read refused as) (as.mapM read) := by
  refine ⟨fun e he => ?_⟩
  obtain ⟨before, a, after, hsplit, hbefore, ha⟩ := mapM_eq_error.mp he
  rcases (h a).cause e ha with hmalformed | ⟨i, hi, rfl⟩
  · exact Or.inl hmalformed
  · exact Or.inr ⟨i, ⟨before, a, after, hsplit, hbefore, hi⟩, rfl⟩

theorem mapM_of_refused {i : IdError} (h : ∀ a, refused a i → read a = .error (.id i))
    (hrefused : RefusedAmong read refused as i) : as.mapM read = .error (.id i) := by
  obtain ⟨before, a, after, hsplit, hbefore, hi⟩ := hrefused
  exact mapM_eq_error.mpr ⟨before, a, after, hsplit, hbefore, h a hi⟩

end Among

theorem blames_ofJson (v : Json) :
    Blames (fun i => ∃ items, v = .array items ∧
      RefusedAmong Event.ofJson Event.RefusedInJson items i) (Events.ofJson v) := by
  unfold Events.ofJson
  split
  · next items => exact (blames_mapM Event.blames_ofJson).mono fun i hi => ⟨items, rfl, hi⟩
  · exact .malformed rfl

theorem ofJson_of_refused {v : Json} {i : IdError} (h : ∃ items, v = .array items ∧
    RefusedAmong Event.ofJson Event.RefusedInJson items i) : Events.ofJson v = .error (.id i) := by
  obtain ⟨items, rfl, hi⟩ := h
  exact mapM_of_refused (fun _ => Event.ofJson_of_refused) hi

theorem blames_ofXml (n : Node) :
    Blames (fun i => n.name = element ∧
      RefusedAmong Event.ofXml Event.RefusedInXml n.elements i) (Events.ofXml n) := by
  unfold Events.ofXml
  refine Event.blames_expectElement fun hname => ?_
  exact (blames_mapM Event.blames_ofXml).mono fun i hi => ⟨hname, hi⟩

theorem ofXml_of_refused {n : Node} {i : IdError} (h : n.name = element ∧
    RefusedAmong Event.ofXml Event.RefusedInXml n.elements i) :
    Events.ofXml n = .error (.id i) := by
  obtain ⟨hname, hi⟩ := h
  rw [Events.ofXml, Event.expectElement_of_name hname, ok_bind]
  exact mapM_of_refused (fun _ => Event.ofXml_of_refused) hi

end Events

/-- **What envelopes are not read for is malformed, unless an identifier is the first that is
refused**: in JSON and in XML, in a tree and in a text, in one envelope and in several. -/
theorem EnvelopeError.isMalformed_iff (e : EnvelopeError) (v : Json) (n : Node) (s : String) :
    (Event.ofJson v = .error e ∧ e.isMalformed = false ↔
      ∃ i, Event.RefusedInJson v i ∧ e = .id i) ∧
    (Event.ofJsonText s = .error e ∧ e.isMalformed = false ↔
      ∃ i, (∃ v, Json.parse? s = some v ∧ Event.RefusedInJson v i) ∧ e = .id i) ∧
    (Event.ofXml n = .error e ∧ e.isMalformed = false ↔
      ∃ i, Event.RefusedInXml n i ∧ e = .id i) ∧
    (Event.ofXmlText s = .error e ∧ e.isMalformed = false ↔
      ∃ i, (∃ n, Node.parse s = .ok n ∧ Event.RefusedInXml n i) ∧ e = .id i) ∧
    (Events.ofJson v = .error e ∧ e.isMalformed = false ↔
      ∃ i, (∃ items, v = .array items ∧
        Events.RefusedAmong Event.ofJson Event.RefusedInJson items i) ∧ e = .id i) ∧
    (Events.ofXml n = .error e ∧ e.isMalformed = false ↔
      ∃ i, (n.name = Events.element ∧
        Events.RefusedAmong Event.ofXml Event.RefusedInXml n.elements i) ∧ e = .id i) :=
  ⟨(Event.blames_ofJson v).iff fun _ => Event.ofJson_of_refused,
    (Event.blames_ofJsonText s).iff fun _ => Event.ofJsonText_of_refused,
    (Event.blames_ofXml n).iff fun _ => Event.ofXml_of_refused,
    (Event.blames_ofXmlText s).iff fun _ => Event.ofXmlText_of_refused,
    (Events.blames_ofJson v).iff fun _ => Events.ofJson_of_refused,
    (Events.blames_ofXml n).iff fun _ => Events.ofXml_of_refused⟩

namespace Event

/-- A greeting whose id is no UUID, in JSON. -/
def unidentified : Json :=
  .object [(idField, .string "x"), (typeField, .string "Note"), (dataField, .string "hi"),
    (metadataField, .object [(dataTypeKey, .string "Note"),
      (dataContentTypeKey, .string "text/plain")])]

/-- A greeting whose id is no UUID, as XML text. -/
def unidentifiedText : String :=
  "<Event><EventId>x</EventId><EventType>Note</EventType><Data>hi</Data><MetaData>" ++
    "<data-type>Note</data-type><data-content-type>text/plain</data-content-type>" ++
    "</MetaData></Event>"

end Event

/-- An id that cannot be read is not reported as malformed, neither in JSON nor in XML. -/
theorem EnvelopeError.isMalformed_unidentified :
    Event.ofJson Event.unidentified = .error (.id .invalidUuid) ∧
      Event.ofJsonText Event.unidentified.print = .error (.id .invalidUuid) ∧
      Event.ofXmlText Event.unidentifiedText = .error (.id .invalidUuid) ∧
      (EnvelopeError.id .invalidUuid).isMalformed = false := by
  have hid : Event.RefusedInJson Event.unidentified .invalidUuid :=
    .id ⟨"x", rfl, by decide +kernel⟩
  exact ⟨Event.ofJson_of_refused hid, (map_eq_error (f := fun _ => ())).mp (by decide +kernel),
    (map_eq_error (f := fun _ => ())).mp (by decide +kernel), rfl⟩

end EventWire

import EventWire.Envelope.Events
import EventWire.Proofs.EventId
import EventWire.Proofs.MediaType
import EventWire.Proofs.Payload.ReadBack

/-!
# Envelopes that were written and read

`Event.readBack` is an envelope with each of its payloads as it is read back. All
else is what it was: id, types, content types and the place of every payload. What a
payload was checked for when the envelope was made still holds, since its kind stays,
so the parts make an envelope again (`UserMeta.ofParts_readBack`,
`Event.ofParts_readBack`).
-/

namespace EventWire

/-! ## Names, ids and content types -/

theorem readType_text (t : DataType) : readType t.text = .ok t := by
  rw [readType, Name.ofText_text, mapError_ok]

theorem readContentType_print (m : MediaType) : readContentType m.print = .ok m := by
  rw [readContentType, MediaType.parse_print, mapError_ok]

theorem Event.readId_text (id : EventId) : Event.readId id.text = .ok id := by
  rw [readId, EventId.ofText_text, mapError_ok]

theorem Event.readEventType_text (t : EventType) : Event.readEventType t.text = .ok t := by
  rw [readEventType, Name.ofText_text, mapError_ok]

/-! ## Envelopes -/

theorem admitsMetaType_readBack (t : DataType) (p : Payload) :
    admitsMetaType t p.readBack = admitsMetaType t p := by
  rw [admitsMetaType, admitsMetaType, Payload.kind_readBack]

/-- Metadata with its payload as it is read back. -/
def UserMeta.readBack (u : UserMeta) : UserMeta where
  type := u.type
  contentType := u.contentType
  payload := u.payload.readBack
  fits := (Payload.fits_readBack _ _).trans u.fits
  admitted := (admitsMetaType_readBack _ _).trans u.admitted

/-- The part with its payload as it is read back. -/
def Meta.readBack (m : Meta) : Meta where
  dataType := m.dataType
  contentType := m.contentType
  user := m.user.map UserMeta.readBack

theorem Meta.readBack_of_none {m : Meta} (h : m.user = none) :
    m.readBack = { dataType := m.dataType, contentType := m.contentType, user := none } := by
  rw [readBack, h]
  rfl

theorem Meta.readBack_of_some {m : Meta} {u : UserMeta} (h : m.user = some u) :
    m.readBack
      = { dataType := m.dataType, contentType := m.contentType, user := some u.readBack } := by
  rw [readBack, h]
  rfl

/-- The envelope with its payloads as they are read back. -/
def Event.readBack (e : Event) : Event where
  id := e.id
  type := e.type
  data := e.data.readBack
  metadata := e.metadata.readBack
  fits := (Payload.fits_readBack _ _).trans e.fits

/-- The names of the types in an envelope. -/
def Event.typeNames (e : Event) : List String :=
  e.type.text :: e.metadata.dataType.text :: (e.metadata.user.map (·.type.text)).toList

/-- The payloads of an envelope. -/
def Event.payloads (e : Event) : List Payload :=
  e.data :: (e.metadata.user.map (·.payload)).toList

theorem Event.data_mem_payloads (e : Event) : e.data ∈ e.payloads :=
  List.mem_cons_self ..

theorem Event.user_mem_payloads {e : Event} {u : UserMeta} (h : e.metadata.user = some u) :
    u.payload ∈ e.payloads := by
  rw [payloads, h]
  exact List.mem_cons_of_mem _ (List.mem_singleton.mpr rfl)

/-- What is so of the data and of the metadata is so of all payloads. -/
theorem Event.forall_payloads {e : Event} {P : Payload → Prop} :
    (∀ p ∈ e.payloads, P p) ↔ P e.data ∧ ∀ u, e.metadata.user = some u → P u.payload := by
  refine ⟨fun h => ⟨h _ e.data_mem_payloads, fun _ hu => h _ (user_mem_payloads hu)⟩, ?_⟩
  rintro ⟨hdata, huser⟩
  rw [payloads]
  refine List.forall_mem_cons.mpr ⟨hdata, ?_⟩
  cases hu : e.metadata.user with
  | none => exact fun _ hp => nomatch hp
  | some u => exact List.forall_mem_singleton.mpr (huser u hu)

theorem Event.type_mem_typeNames (e : Event) : e.type.text ∈ e.typeNames :=
  List.mem_cons_self ..

theorem Event.dataType_mem_typeNames (e : Event) : e.metadata.dataType.text ∈ e.typeNames :=
  List.mem_cons_of_mem _ (List.mem_cons_self ..)

theorem Event.user_mem_typeNames {e : Event} {u : UserMeta} (h : e.metadata.user = some u) :
    u.type.text ∈ e.typeNames := by
  rw [typeNames, h]
  exact List.mem_cons_of_mem _ (List.mem_cons_of_mem _ (List.mem_singleton.mpr rfl))

/-- Metadata is what it was made of. -/
theorem UserMeta.ofParts_eq_ok {t : DataType} {m : MediaType} {p : Payload} {u : UserMeta}
    (h : UserMeta.ofParts t m p = .ok u) :
    ∃ fits admitted, u = { type := t, contentType := m, payload := p, fits, admitted } := by
  unfold ofParts at h
  split at h
  · next fits =>
    split at h
    · next admitted => exact ⟨fits, admitted, (Except.ok.inj h).symm⟩
    · split at h
      · cases h
      · cases h
  · cases h

/-- An envelope is what it was made of. -/
theorem Event.ofParts_eq_ok {id : EventId} {t : EventType} {data : Payload} {m : Meta} {e : Event}
    (h : Event.ofParts id t data m = .ok e) :
    ∃ fits, e = { id, type := t, data, metadata := m, fits } := by
  unfold ofParts at h
  split at h
  · next fits => exact ⟨fits, (Except.ok.inj h).symm⟩
  · cases h

/-- Metadata is made of its own parts. -/
theorem UserMeta.ofParts_self (u : UserMeta) :
    UserMeta.ofParts u.type u.contentType u.payload = .ok u := by
  rw [ofParts, dif_pos u.fits, dif_pos u.admitted]

theorem UserMeta.ofParts_readBack (u : UserMeta) :
    UserMeta.ofParts u.type u.contentType u.payload.readBack = .ok u.readBack :=
  ofParts_self u.readBack

/-- An envelope is made of its own parts. -/
theorem Event.ofParts_self (e : Event) : Event.ofParts e.id e.type e.data e.metadata = .ok e := by
  rw [ofParts, dif_pos e.fits]

theorem Event.ofParts_readBack (e : Event) :
    Event.ofParts e.id e.type e.data.readBack e.metadata.readBack = .ok e.readBack :=
  ofParts_self e.readBack

theorem Event.payloads_readBack (e : Event) :
    e.readBack.payloads = e.payloads.map Payload.readBack := by
  rw [payloads, payloads, readBack]
  dsimp only
  cases huser : e.metadata.user with
  | none => rw [Meta.readBack_of_none huser]; rfl
  | some u => rw [Meta.readBack_of_some huser]; rfl

theorem Meta.readBack_eq_self {m : Meta}
    (h : ∀ u, m.user = some u → u.payload.readBack = u.payload) : m.readBack = m := by
  cases huser : m.user with
  | none => rw [readBack_of_none huser, ← huser]
  | some u =>
    have hparts := u.ofParts_readBack
    rw [h u huser, UserMeta.ofParts_self] at hparts
    rw [readBack_of_some huser, ← Except.ok.inj hparts, ← huser]

/-- **An envelope is what it is as it is read back if each of its payloads is.** -/
theorem Event.readBack_eq_self_iff {e : Event} :
    e.readBack = e ↔ ∀ p ∈ e.payloads, p.readBack = p := by
  constructor
  · intro h
    have hpayloads : e.payloads.map Payload.readBack = e.payloads.map fun p => p := by
      rw [← payloads_readBack, h, List.map_id']
    exact List.map_inj_left.mp hpayloads
  · intro h
    have hmetadata := Meta.readBack_eq_self fun u hu => h _ (user_mem_payloads hu)
    have hparts := e.ofParts_readBack
    rw [h _ e.data_mem_payloads, hmetadata, ofParts_self] at hparts
    exact (Except.ok.inj hparts).symm

/-- The id of zeros alone. -/
def EventId.least : EventId where
  digits := List.replicate 32 (Fin.last 15).rev
  complete := List.length_replicate

/-- The id of the greatest digits. -/
def EventId.greatest : EventId where
  digits := List.replicate 32 (Fin.last 15)
  complete := List.length_replicate

/-- Orders. -/
def DataType.order : DataType := ⟨"Order", by decide +kernel⟩

namespace Event

/-- An order as XML, with texts and CDATA side by side, and who placed it as JSON with
the key of base64 text. -/
def order : Event where
  id := .least
  type := ⟨"OrderPlaced", by decide +kernel⟩
  data := .xml {
    name := "order"
    attributes := [("note", "a<\"b\" & 'c'")]
    children := [.text " ", .text "two ", .text "", .text "items", .cdata "x]]>y", .cdata "z",
      .text "\n", .element "item" [] [], .cdata ""] }
  metadata := {
    dataType := .order
    contentType := .xml .usAscii
    user := some {
      type := ⟨"data-type-", by decide +kernel⟩
      contentType := .json .latin1
      payload := .json (.object [
        ("Base64", .array [.number (.integer (-3) (by decide) (by decide)), .string "<é\"\n>"]),
        ("at", .number (.float { negative := false, pattern := 0x3ff8000000000000 }))])
      fits := by decide +kernel
      admitted := by decide +kernel } }
  fits := by decide +kernel

/-- A scan as text that looks like XML, with a preview in bytes under the name of
base64 text. -/
def scan : Event where
  id := .greatest
  type := ⟨"Scanned", by decide +kernel⟩
  data := .text "<page>]]>&amp;</page>\n"
  metadata := {
    dataType := ⟨"Page", by decide +kernel⟩
    contentType := .plainText .utf8
    user := some {
      type := ⟨base64Tag, by decide +kernel⟩
      contentType := .octetStream
      payload := .binary (.ofText "/wA=")
      fits := by decide +kernel
      admitted := by decide +kernel } }
  fits := by decide +kernel

end Event

end EventWire

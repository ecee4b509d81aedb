import EventWire.Bookshop
import EventWire.Codec.Marshal
import EventWire.Proofs.Charset
import EventWire.Proofs.Xml.RoundTrip
import EventWire.Proofs.Xml.Settled

/-!
# The XML codec undoes itself

Between a value and its bytes there are adapters, a validator, a declaration and a
charset, set in any order; whatever was set last, the media type of a codec is one of XML
and leads to the charset of the codec (`isXml`, `agrees`). The bytes are read as a document
that declares what the codec declares, with the tree that went over the wire in its normal
form (`exists_document_of_marshal`). If that tree is settled, the validator sees it again and
finds what it found before, and adapters that undo what they do, last one first, lead back to
the tree of the value (`applyInward_of_applyOutward`). What is left is up to the class of the
type alone (`unmarshal_marshal`).
-/

namespace EventWire

/-- Text that was encoded is decoded under a media type that leads to the same
charset. -/
theorem decodeText_of_encodeText {m : MediaType} {c fallback : Charset} {s : String} {bs : Bytes}
    (hcharset : m.charsetOr fallback = .ok c) (h : encodeText c s = .ok bs) :
    decodeText m fallback bs = .ok (c, s) := by
  rw [decodeText, hcharset, mapError_ok, ok_bind, Charset.decode_of_encode (mapError_eq_ok.mp h)]
  rfl

namespace Xml.Adapter

/-- **Adapters are undone from the last to the first**, if each undoes what it does. -/
theorem applyInward_of_applyOutward {adapters : List Adapter}
    (h : ∀ a ∈ adapters, ∀ n m, a.outward n = .ok m → a.inward m = .ok n) :
    ∀ {n m : Node}, applyOutward adapters n = .ok m → applyInward adapters m = .ok n := by
  induction adapters with
  | nil =>
    intro n m hout
    cases hout
    rfl
  | cons a rest ih =>
    obtain ⟨ha, hrest⟩ := List.forall_mem_cons.mp h
    intro n m hout
    rw [applyOutward] at hout
    split at hout
    · next between hbetween =>
      rw [applyInward, ih hrest hout]
      exact ha n between hbetween
    · cases hout

/-- Puts an element around a root, and takes it off. -/
def wrap (outer : String) : Adapter where
  outward n := .ok ((Node.named outer).withChild n)
  inward n :=
    match n.elements with
    | m :: _ => .ok m
    | [] => .error "nothing inside"

/-- What was wrapped is found inside. -/
theorem inward_wrap {outer : String} {n m : Node} (h : (wrap outer).outward n = .ok m) :
    (wrap outer).inward m = .ok n := by
  cases h
  rfl

end Xml.Adapter

namespace XmlCodec

variable {x : XmlCodec} {v : Value} {t : DataType} {bs : Bytes}

/-- The instance that a tree stands for by itself: the class of the type reads it from
its text. -/
def instanceOf (x : XmlCodec) (n : Xml.Node) (t : DataType) : Except SerializationError Value := do
  let c ← x.classes.find t
  let s ← n.write.mapError inputFault
  (c.ofXml s).mapError fun e => stepFault (.mapping e)

theorem ofTree_of_applyInward {n m : Xml.Node} (h : Xml.Adapter.applyInward x.adapters n = .ok m) :
    x.ofTree n t = x.instanceOf m t := by
  rw [ofTree, h, mapError_ok, ok_bind]
  rfl

theorem outwardTree_eq_ok {n m : Xml.Node} (htree : x.toTree v t = .ok n)
    (hout : Xml.Adapter.applyOutward x.adapters n = .ok m) : x.outwardTree v t = .ok m := by
  rw [outwardTree, htree, ok_bind, hout, mapError_ok]

/-- What a codec declares is what it decodes with, so there is nothing to find. -/
theorem encodingFindings_declaration (x : XmlCodec) :
    encodingFindings x.declaration x.charset = [] := by
  unfold declaration
  split
  · rfl
  · rw [encodingFindings, Charset.ofName_name]
    exact if_pos rfl

/-- **What is written is read as what is declared, and the tree in its normal form.** The
findings about the tree did not stop the writing. -/
theorem exists_document_of_marshal {n : Xml.Node} (hout : x.outwardTree v t = .ok n)
    (hattributes : n.every Xml.validAttributes = true)
    (hdistinct : n.every Xml.distinctAttributes = true) (h : x.marshal v t = .ok bs) :
    x.policy.review (x.validate n) = .ok () ∧
      ∃ s, encodeText x.charset s = .ok bs ∧
        Xml.Document.parse s = .ok { declared := x.declaration, root := n.norm } := by
  rw [marshal, hout, ok_bind] at h
  obtain ⟨⟨⟩, hreview, hrest⟩ := bind_eq_ok.mp h
  obtain ⟨s, hs, hencode⟩ := bind_eq_ok.mp hrest
  have hdeclared :
      x.declaration = (if x.fragment then none else some x.charset).map Charset.name := by
    unfold declaration
    split
    · rfl
    · rfl
  rw [hdeclared] at hs ⊢
  exact ⟨hreview, s, hencode, Xml.parse_writeDocument hattributes hdistinct (mapError_eq_ok.mp hs)⟩

/-- A tree that comes out of the bytes and is found no worse than before is what the
adapters get. -/
theorem readBytes_of_document {m : MediaType} {s : String} {n : Xml.Node} (hxml : m.isXml = true)
    (htext : decodeText m x.charset bs = .ok (x.charset, s))
    (hparse : Xml.Document.parse s = .ok { declared := x.declaration, root := n })
    (hreview : x.policy.review (x.validate n) = .ok ()) : x.readBytes bs t m = x.ofTree n t := by
  rw [readBytes, if_pos hxml, htext, ok_bind]
  dsimp only
  rw [hparse, mapError_ok, ok_bind]
  dsimp only
  rw [encodingFindings_declaration, List.nil_append, hreview, ok_bind]

theorem instanceOf_eq_error {n : Xml.Node} {e : SerializationError}
    (h : x.instanceOf n t = .error e) :
    e = .classNotFound t ∨ (∃ name, e = inputFault (.invalidName name)) ∨
      ∃ f, e = stepFault (.mapping f) := by
  rw [instanceOf] at h
  cases hfind : x.classes.find t with
  | error e' =>
    rw [hfind] at h
    cases h
    rw [ClassTable.find] at hfind
    split at hfind
    · cases hfind
    · cases hfind
      exact Or.inl rfl
  | ok c =>
    rw [hfind, ok_bind] at h
    cases hwrite : n.write with
    | error e' =>
      rw [hwrite] at h
      cases h
      obtain ⟨name, -, -, rfl⟩ := Xml.writeDocument_eq_error hwrite
      exact Or.inr (Or.inl ⟨name, rfl⟩)
    | ok s =>
      rw [hwrite, mapError_ok, ok_bind] at h
      cases hread : c.ofXml s with
      | error f =>
        rw [hread] at h
        cases h
        exact Or.inr (Or.inr ⟨f, rfl⟩)
      | ok w =>
        rw [hread] at h
        cases h

/-- **The codec undoes itself.** If the tree on the wire is settled, the bytes are read
as the tree of the value, and go on to its class. They decode, and parse to what was
written; the declaration and the validator raise nothing that was not let pass before,
and the adapters lead back. So only the class, or a tree that it cannot be given, is
left to fail. -/
theorem unmarshal_marshal {before wire : Xml.Node}
    (hadapters : ∀ a ∈ x.adapters, ∀ n m, a.outward n = .ok m → a.inward m = .ok n)
    (hbefore : x.toTree v t = .ok before)
    (hwire : Xml.Adapter.applyOutward x.adapters before = .ok wire)
    (hattributes : wire.every Xml.validAttributes = true)
    (hdistinct : wire.every Xml.distinctAttributes = true) (hsettled : wire.settled = true)
    (h : (Codec.xml x).marshal v t = .ok bs) :
    (Codec.xml x).unmarshal (.bytes bs) t (Codec.xml x).mediaType = x.instanceOf before t ∧
    (∃ s, decodeText x.mediaType x.charset bs = .ok (x.charset, s) ∧
      Xml.Document.parse s = .ok { declared := x.declaration, root := wire }) ∧
    encodingFindings x.declaration x.charset = [] ∧
    x.policy.review (x.validate wire) = .ok () ∧
    Xml.Adapter.applyInward x.adapters wire = .ok before ∧
    ∀ e, (Codec.xml x).unmarshal (.bytes bs) t (Codec.xml x).mediaType = .error e →
      e = .classNotFound t ∨ (∃ name, e = inputFault (.invalidName name)) ∨
        ∃ f, e = stepFault (.mapping f) := by
  obtain ⟨hreview, s, hencode, hparse⟩ :=
    exists_document_of_marshal (outwardTree_eq_ok hbefore hwire) hattributes hdistinct h
  rw [Xml.norm_of_settled hsettled] at hparse
  have htext := decodeText_of_encodeText x.agrees hencode
  have hback := Xml.Adapter.applyInward_of_applyOutward hadapters hwire
  have hread : (Codec.xml x).unmarshal (.bytes bs) t (Codec.xml x).mediaType
      = x.instanceOf before t :=
    (readBytes_of_document x.isXml htext hparse hreview).trans (ofTree_of_applyInward hback)
  refine ⟨hread, ⟨s, htext, hparse⟩, encodingFindings_declaration x, hreview, hback, ?_⟩
  intro e he
  exact instanceOf_eq_error (hread.symm.trans he)

/-- A codec for books that wraps them twice, writes in ISO-8859-1 and asks for a
language. -/
def parcels : XmlCodec :=
  ((((new (Bookshop.classes "")).withCharset .latin1).withAdapter (.wrap "parcel")).withAdapter
    (.wrap "sack")).withValidator (Xml.requireAttributes [("lang", .warning)])

/-- A book as its class has it. -/
def book : Value :=
  .record {
    label := "BookAddedEvent"
    fields := [{ key := "@name", kind := .text }, { key := "@author", kind := .text }]
    values := [.text "<é>\n", .text ""]
    fit := by decide +kernel }

/-- The book as a tree. -/
def bookTree : Xml.Node :=
  { name := "book-added-event", attributes := [("name", "<é>\n"), ("author", "")], children := [] }

/-- The book is wrapped, declared and encoded, and is read as the tree that it was
before, from which its class reads a book. -/
theorem unmarshal_marshal_parcels :
    ∃ bs, (Codec.xml parcels).marshal book Bookshop.bookAddedEvent = .ok bs ∧
      (Codec.xml parcels).unmarshal (.bytes bs) Bookshop.bookAddedEvent (.xml .latin1)
        = parcels.instanceOf bookTree Bookshop.bookAddedEvent ∧
      (parcels.instanceOf bookTree Bookshop.bookAddedEvent).isOk = true := by
  have hadapters : ∀ a ∈ parcels.adapters, ∀ n m, a.outward n = .ok m → a.inward m = .ok n := by
    intro a ha n m hout
    rcases List.mem_cons.mp ha with rfl | hlast
    · exact Xml.Adapter.inward_wrap hout
    · obtain rfl := List.mem_singleton.mp hlast
      exact Xml.Adapter.inward_wrap hout
  have hbefore : parcels.toTree book Bookshop.bookAddedEvent = .ok bookTree :=
    toOption_eq_some.mp (by decide +kernel)
  obtain ⟨bs, hbs⟩ : ∃ bs, (Codec.xml parcels).marshal book Bookshop.bookAddedEvent = .ok bs :=
    exists_ok_of_isOk (by decide +kernel)
  obtain ⟨hread, -⟩ := unmarshal_marshal hadapters hbefore rfl (by decide +kernel)
    (by decide +kernel) (by decide +kernel) hbs
  exact ⟨bs, hbs, hread, by decide +kernel⟩

end XmlCodec

end EventWire

import EventWire.Proofs.Codec.Xml

/-!
# Findings that stop an XML codec

With the strict policy, a codec that reads looks at the declaration of the document first, then
asks the validator about the tree as it was parsed, and one that writes asks it about the tree as
it will be written. The first finding that is more than a warning is the error; behind warnings
alone, all goes on as if there had been no validator (`Escalates`). No other step fails with such
an error (`ofTree_ne_validation`, `written_ne_validation`), so adapters, classes and their table
have no say in it. `strict_escalates` is the result for both directions.
-/

namespace EventWire

open Xml (Finding)

/-- The first finding of a list that is more than a warning. -/
def Xml.FirstSerious (f : Finding) (fs : List Finding) : Prop :=
  ∃ before after, fs = before ++ f :: after ∧ f.isSerious = true ∧
    ∀ g ∈ before, g.isSerious = false

theorem Xml.find?_isSerious_iff {f : Finding} {fs : List Finding} :
    fs.find? (·.isSerious) = some f ↔ FirstSerious f fs := by
  rw [List.find?_eq_some_iff_append]
  constructor
  · rintro ⟨hf, before, after, hsplit, hbefore⟩
    exact ⟨before, after, hsplit, hf, fun g hg => by simpa using hbefore g hg⟩
  · rintro ⟨before, after, hsplit, hf, hbefore⟩
    exact ⟨hf, before, after, hsplit, fun g hg => by simpa using hbefore g hg⟩

/-- What findings do to a result: the first serious one is the error, and warnings alone make no
difference to the result that there is without a validator. -/
structure Escalates {α : Type} (found : List Finding)
    (checked unchecked : Except SerializationError α) : Prop where
  stops : (∃ g ∈ found, g.isSerious = true) →
    ∃ f, Xml.FirstSerious f found ∧ checked = .error (.validation f)
  only : ∀ f, checked = .error (.validation f) → Xml.FirstSerious f found
  passes : (∀ g ∈ found, g.isSerious = false) → checked = unchecked

namespace Policy

/-- The strict policy passes warnings. -/
theorem review_strict_of_warnings {fs : List Finding} (h : ∀ g ∈ fs, g.isSerious = false) :
    review strict fs = .ok () := by
  have hnone : fs.find? (·.isSerious) = none :=
    List.find?_eq_none.mpr fun g hg => Bool.eq_false_iff.mp (h g hg)
  rw [review_strict, hnone]

/-- A strict review in front of steps that raise no findings of their own escalates. Without some
of the findings, warnings pass as well. -/
theorem escalates_review {α : Type} {found fewer : List Finding}
    {later : Except SerializationError α} (hfewer : fewer ⊆ found)
    (hlater : ∀ f, later ≠ .error (.validation f)) :
    Escalates found (review strict found >>= fun _ => later)
      (review strict fewer >>= fun _ => later) where
  stops := by
    rintro ⟨g, hg, hserious⟩
    obtain ⟨f, hf⟩ := Option.isSome_iff_exists.mp (List.find?_isSome.mpr ⟨g, hg, hserious⟩)
    refine ⟨f, Xml.find?_isSerious_iff.mp hf, ?_⟩
    rw [review_strict, hf]
    rfl
  only := by
    intro f h
    rw [review_strict] at h
    split at h
    · exact absurd h (hlater f)
    · next g hg =>
      cases h
      exact Xml.find?_isSerious_iff.mp hg
  passes := by
    intro h
    rw [review_strict_of_warnings h, review_strict_of_warnings fun g hg => h g (hfewer hg)]

end Policy

/-- What there is to say about the encoding that a document declares: nothing if it is the charset
that was used, and otherwise one error. -/
inductive DeclaredFor (used : Charset) : Option String → List Finding → Prop
  | silent : DeclaredFor used none []
  | agrees {name : String} : Charset.ofName name = .ok used → DeclaredFor used (some name) []
  | differs {name : String} : Charset.ofName name ≠ .ok used →
    DeclaredFor used (some name) [{
      severity := .error
      message := s!"declared encoding '{name}' does not match {used.name}" }]

namespace XmlCodec

variable {x : XmlCodec} {v : Value} {t : DataType} {bs : Bytes}

theorem declaredFor_iff {used : Charset} {declared : Option String} {about : List Finding} :
    DeclaredFor used declared about ↔ encodingFindings declared used = about := by
  constructor
  · intro h
    cases h with
    | silent => rfl
    | agrees hname => rw [encodingFindings, if_pos (toOption_eq_some.mpr hname)]
    | differs hname => rw [encodingFindings, if_neg fun h => hname (toOption_eq_some.mp h)]
  · rintro rfl
    cases declared with
    | none => exact .silent
    | some name =>
      rw [encodingFindings]
      split
      · next h => exact .agrees (toOption_eq_some.mp h)
      · next h => exact .differs fun hname => h (toOption_eq_some.mpr hname)

/-- The codec without its validator. -/
def withoutValidator (x : XmlCodec) : XmlCodec :=
  { x with validator := none }

/-- A tree is refused by an adapter, for want of a class, for a name, or by the class. -/
theorem ofTree_eq_error {n : Xml.Node} {e : SerializationError} (h : x.ofTree n t = .error e) :
    (∃ reason, e = stepFault (.adapter reason)) ∨ e = .classNotFound t ∨
      (∃ name, e = inputFault (.invalidName name)) ∨ ∃ f, e = stepFault (.mapping f) := by
  rcases bind_eq_error.mp h with hadapter | ⟨m, -, hrest⟩
  · obtain ⟨reason, -, rfl⟩ := mapError_eq_error.mp hadapter
    exact Or.inl ⟨reason, rfl⟩
  · exact Or.inr (instanceOf_eq_error hrest)

theorem ofTree_ne_validation (n : Xml.Node) (f : Finding) :
    x.ofTree n t ≠ .error (.validation f) := by
  intro h
  rcases ofTree_eq_error h with ⟨_, h⟩ | h | ⟨_, h⟩ | ⟨_, h⟩
  · cases h
  · cases h
  · cases h
  · cases h

/-- The bytes of a tree that is not looked at any more. -/
def written (x : XmlCodec) (n : Xml.Node) : Except SerializationError Bytes := do
  let s ← (Xml.writeDocument n x.declaration).mapError inputFault
  encodeText x.charset s

theorem written_ne_validation (n : Xml.Node) (f : Finding) :
    x.written n ≠ .error (.validation f) := by
  intro h
  rcases bind_eq_error.mp h with hwrite | ⟨s, -, hencode⟩
  · obtain ⟨_, -, he⟩ := mapError_eq_error.mp hwrite
    cases he
  · obtain ⟨_, -, he⟩ := mapError_eq_error.mp hencode
    cases he

/-- Reading is a review of what the declaration and the tree are found to be, and then the way of
the tree to its instance. -/
theorem readBytes_eq {m : MediaType} {c : Charset} {s : String} {d : Xml.Document}
    (hxml : m.isXml = true) (hcharset : m.charsetOr x.charset = .ok c)
    (hdecode : c.decode bs = .ok s) (hparse : Xml.Document.parse s = .ok d) :
    x.readBytes bs t m =
      x.policy.review (encodingFindings d.declared c ++ x.validate d.root) >>=
        fun _ => x.ofTree d.root t := by
  have htext : decodeText m x.charset bs = .ok (c, s) := by
    rw [decodeText, hcharset, mapError_ok, ok_bind, hdecode]
    rfl
  rw [readBytes, if_pos hxml, htext, ok_bind]
  dsimp only
  rw [hparse, mapError_ok, ok_bind]

/-- Writing is a review of what the tree on the wire is found to be, and then its bytes. -/
theorem marshal_eq_review {n : Xml.Node} (hout : x.outwardTree v t = .ok n) :
    x.marshal v t = x.policy.review (x.validate n) >>= fun _ => x.written n := by
  rw [marshal, hout, ok_bind]
  rfl

/-- **A strict codec escalates the first serious finding, and nothing gets past it.** On reading,
a declared encoding other than the one that was used comes first, and then what the validator
finds about the tree before any adapter has changed it; on writing, it is what the validator finds
after all adapters. Warnings alone leave the result that there is without a validator. -/
theorem strict_escalates (hstrict : x.policy = Policy.strict) (t : DataType) :
    (∀ (m : MediaType) (bs : Bytes) (c : Charset) (s : String) (d : Xml.Document)
      (about : List Finding), m.isXml = true → m.charsetOr x.charset = .ok c →
      c.decode bs = .ok s → Xml.Document.parse s = .ok d → DeclaredFor c d.declared about →
      Escalates (about ++ x.validate d.root) ((Codec.xml x).unmarshal (.bytes bs) t m)
        ((Codec.xml x.withoutValidator).unmarshal (.bytes bs) t m)) ∧
    ∀ (v : Value) (n : Xml.Node), x.outwardTree v t = .ok n →
      Escalates (x.validate n) ((Codec.xml x).marshal v t)
        ((Codec.xml x.withoutValidator).marshal v t) := by
  constructor
  · intro m bs c s d about hxml hcharset hdecode hparse habout
    have hchecked : (Codec.xml x).unmarshal (.bytes bs) t m =
        Policy.strict.review (about ++ x.validate d.root) >>= fun _ => x.ofTree d.root t := by
      rw [← hstrict, ← declaredFor_iff.mp habout]
      exact readBytes_eq hxml hcharset hdecode hparse
    have hunchecked : (Codec.xml x.withoutValidator).unmarshal (.bytes bs) t m =
        Policy.strict.review about >>= fun _ => x.ofTree d.root t := by
      rw [← hstrict, ← declaredFor_iff.mp habout,
        ← List.append_nil (encodingFindings d.declared c)]
      exact readBytes_eq (x := x.withoutValidator) hxml hcharset hdecode hparse
    rw [hchecked, hunchecked]
    exact Policy.escalates_review (List.subset_append_left _ _) (ofTree_ne_validation d.root)
  · intro v n hout
    have hchecked : (Codec.xml x).marshal v t =
        Policy.strict.review (x.validate n) >>= fun _ => x.written n := by
      rw [← hstrict]
      exact marshal_eq_review hout
    have hunchecked : (Codec.xml x.withoutValidator).marshal v t =
        Policy.strict.review [] >>= fun _ => x.written n :=
      marshal_eq_review (x := x.withoutValidator) hout
    rw [hchecked, hunchecked]
    exact Policy.escalates_review (List.nil_subset _) (written_ne_validation n)

/-- A codec that leaves a trace in what it writes and in what it reads, insists on a trace and
would like a language. -/
def traced : XmlCodec :=
  ((new (Bookshop.classes "")).withAdapter (.trace "+")).withValidator
    (Xml.requireAttributes [("lang", .warning), ("trace", .fatal)])

/-- The trace that is missing in what is read is fatal, though an adapter would add it, but not
before a wrong declaration is. In what is written it is there, and a missing language does no
harm. -/
theorem strict_escalates_traced :
    (Codec.xml traced).unmarshal (.bytes (Text.Utf8.encode "<book/>".toList))
        Bookshop.bookAddedEvent (.xml .utf8)
      = .error (.validation { severity := .fatal, message := "trace is missing" }) ∧
    (Codec.xml traced).unmarshal
        (.bytes (Text.Utf8.encode "<?xml version='1.0' encoding='latin1'?><book/>".toList))
        Bookshop.bookAddedEvent (.xml .utf8)
      = .error (.validation {
          severity := .error
          message := "declared encoding 'latin1' does not match UTF-8" }) ∧
    (Codec.xml traced).marshal (.tree (.named "book")) Bookshop.bookAddedEvent
      = (Codec.xml traced.withoutValidator).marshal (.tree (.named "book"))
          Bookshop.bookAddedEvent := by
  obtain ⟨hread, hwrite⟩ := strict_escalates (x := traced) rfl Bookshop.bookAddedEvent
  refine ⟨?_, ?_, ?_⟩
  · have hescalates := hread (.xml .utf8) (Text.Utf8.encode "<book/>".toList) .utf8 "<book/>"
      { declared := none, root := .named "book" } [] (MediaType.isXml_xml _)
      (MediaType.charsetOr_xml _ _) (Charset.decode_of_encode rfl)
      (toOption_eq_some.mp (by decide)) .silent
    obtain ⟨f, hf, herror⟩ := hescalates.stops (by decide)
    obtain rfl := Option.some.inj ((Xml.find?_isSerious_iff.mpr hf).symm.trans rfl)
    exact herror
  · have hescalates := hread (.xml .utf8)
      (Text.Utf8.encode "<?xml version='1.0' encoding='latin1'?><book/>".toList) .utf8
      "<?xml version='1.0' encoding='latin1'?><book/>"
      { declared := some "latin1", root := .named "book" } _ (MediaType.isXml_xml _)
      (MediaType.charsetOr_xml _ _) (Charset.decode_of_encode rfl)
      (toOption_eq_some.mp (by decide)) (.differs (by decide))
    obtain ⟨f, hf, herror⟩ := hescalates.stops (by decide)
    obtain rfl := Option.some.inj ((Xml.find?_isSerious_iff.mpr hf).symm.trans rfl)
    exact herror
  · have hescalates := hwrite (.tree (.named "book"))
      { name := "book", attributes := [("trace", "+")], children := [] }
      (toOption_eq_some.mp (by decide))
    exact hescalates.passes (by decide)

end XmlCodec

end EventWire

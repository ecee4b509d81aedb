import EventWire.Proofs.Xml.Distinct
import EventWire.Proofs.Xml.RoundTrip
import EventWire.Proofs.Xml.Settled

/-!
# Trees that are built

A tree is built from a name by setting attributes and by adding texts, CDATA and built
trees (`Node.Built`). Its texts and values are any texts, but no attribute comes twice
in it (`distinct_of_built`). So, if attributes have valid names, such a tree is written
unless the name of an element is not valid, and is read as its normal form, with or
without a declaration in front (`parse_write_of_built`).
-/

namespace EventWire.Xml

/-- An element that is put together from its name. -/
inductive Node.Built : Node → Prop
  | named (name : String) : Built (.named name)
  | setAttribute {n : Node} (h : Built n) (name value : String) : Built (n.setAttribute name value)
  | withText {n : Node} (h : Built n) (s : String) : Built (n.withText s)
  | withCdata {n : Node} (h : Built n) (s : String) : Built (n.withCdata s)
  | withChild {n child : Node} (h : Built n) (hchild : Built child) : Built (n.withChild child)

/-- **A tree that is built has no attribute twice.** -/
theorem distinct_of_built {n : Node} (h : n.Built) : n.every distinctAttributes = true := by
  induction h with
  | named name => exact Node.every_named rfl
  | setAttribute _ name value ih => exact Node.distinct_setAttribute ih name value
  | withText _ s ih => exact Node.every_push.mpr ⟨ih, rfl⟩
  | withCdata _ s ih => exact Node.every_push.mpr ⟨ih, rfl⟩
  | withChild _ _ ih ihchild => exact Node.every_push.mpr ⟨ih, ihchild⟩

section Built

variable {n : Node}

/-- A built tree is read as its normal form, and as declaring the encoding that was
written in front. -/
theorem exists_document_of_built (hbuilt : n.Built) (hattributes : n.every validAttributes = true)
    (hnames : ∀ name ∈ n.names, isValidName name = true) (charset : Option Charset) :
    ∃ s, writeDocument n (charset.map Charset.name) = .ok s ∧
      Document.parse s = .ok { declared := charset.map Charset.name, root := n.norm } := by
  obtain ⟨s, hs⟩ := exists_writeDocument hnames (charset.map Charset.name)
  exact ⟨s, hs, parse_writeDocument hattributes (distinct_of_built hbuilt) hs⟩

/-- **A tree that is built is written exactly when the names of its elements are valid,
and then it is read as its normal form.** A declaration in front is read as what it
declares and changes nothing else. The normal form is about texts alone: elements,
attributes and CDATA are as they were. -/
theorem Node.parse_write_of_built (hbuilt : n.Built)
    (hattributes : n.every validAttributes = true) :
    ((∃ name, n.write = .error (.invalidName name))
      ↔ ∃ name ∈ n.names, isValidName name = false) ∧
    ((∀ name ∈ n.names, isValidName name = true) →
      ∃ s, n.write = .ok s ∧ Node.parse s = .ok n.norm ∧
        Document.parse s = .ok { declared := none, root := n.norm }) ∧
    (∀ c : Charset,
      ((∃ name, writeDocument n (some c.name) = .error (.invalidName name))
        ↔ ∃ name ∈ n.names, isValidName name = false) ∧
      ((∀ name ∈ n.names, isValidName name = true) →
        ∃ s, writeDocument n (some c.name) = .ok s ∧
          Document.parse s = .ok { declared := some c.name, root := n.norm })) ∧
    n.norm.withoutTexts = n.withoutTexts := by
  refine ⟨writeDocument_eq_invalidName_iff n none, ?_, ?_, withoutTexts_norm n⟩
  · intro hnames
    obtain ⟨s, hs, hparse⟩ := exists_document_of_built hbuilt hattributes hnames none
    refine ⟨s, hs, ?_, hparse⟩
    rw [Node.parse, hparse]
    rfl
  · intro c
    refine ⟨writeDocument_eq_invalidName_iff n (some c.name), ?_⟩
    intro hnames
    exact exists_document_of_built hbuilt hattributes hnames (some c)

/-- A letter with texts and CDATA side by side, among them an end mark and blanks, and
an attribute that was set twice. -/
def Node.letter : Node :=
  ((((((((Node.named "letter").setAttribute "to" "you").setAttribute "to" "<\"&'\n").withText
    " ").withText "]]>").withCdata "a]]").withText "\n").withCdata ">b").withChild
    ((Node.named "sign").withText "\t")

theorem Node.built_letter : letter.Built :=
  .withChild (.withCdata (.withText (.withCdata (.withText (.withText (.setAttribute
    (.setAttribute (.named _) _ _) _ _) _) _) _) _) _) (.withText (.named _) _)

/-- The letter is written and read, and its CDATA is joined over the blank text. -/
theorem Node.parse_write_of_built_letter :
    letter.Built ∧ letter.every validAttributes = true ∧
      (∀ name ∈ letter.names, isValidName name = true) ∧
      ∃ s, letter.write = .ok s ∧ Node.parse s = .ok {
        name := "letter"
        attributes := [("to", "<\"&'\n")]
        children := [.text " ]]>", .cdata "a]]>b", .element "sign" [] []] } := by
  have hattributes : letter.every validAttributes = true := by decide +kernel
  have hnames : ∀ name ∈ letter.names, isValidName name = true := by decide +kernel
  obtain ⟨s, hs, hparse, -⟩ := (parse_write_of_built built_letter hattributes).2.1 hnames
  exact ⟨built_letter, hattributes, hnames, s, hs, hparse⟩

end Built

end EventWire.Xml

import EventWire.Proofs.Except
import EventWire.Proofs.Xml.Tree

/-!
# What is so of all that is read

A reader works on open elements. It opens one with the attributes of a tag, and puts texts,
CDATA and finished elements into it. A property of open elements that all of this leaves
alone (`Kept`) is so of every element that is open at any time, and was so of the root
before it was finished (`exists_open_of_parse`). If it is a property of tags, it comes down
to the attributes that a tag can have (`every_of_parse`).
-/

namespace EventWire.Xml

/-- A property that open elements have from the start and keep. -/
structure Kept (Q : OpenElement → Prop) : Prop where
  opened : ∀ {cs attributes}, Builder.attributesOf cs = .ok attributes →
    ∀ name, Q { name, attributes, done := [] }
  element : ∀ {e inner}, Q e → Q inner → Q { e with done := inner.toNode.toContent :: e.done }
  text : ∀ {e s}, Q e → Text.blankOnly s.toList = false → Q { e with done := .text s :: e.done }
  cdata : ∀ {e}, Q e → ∀ s, Q { e with done := addCdata s e.done }

namespace Builder

/-! ## What a builder holds, as a list -/

section Listed

variable {β : Type} {ofRoot : Node → List β} {ofOpen : OpenElement → List β} {b b' : Builder}

/-- What there is of the root, and then of what is open, the innermost element last. -/
def listed (ofRoot : Node → List β) (ofOpen : OpenElement → List β) (b : Builder) : List β :=
  b.root.toList.flatMap ofRoot ++ b.stack.reverse.flatMap ofOpen

theorem listed_push (b : Builder) (e : OpenElement) :
    listed ofRoot ofOpen { b with stack := e :: b.stack } = b.listed ofRoot ofOpen ++ ofOpen e := by
  rw [listed, listed, List.reverse_cons, List.flatMap_append, List.flatMap_singleton,
    List.append_assoc]

/-- What is put into the innermost element comes last. -/
theorem listed_addContent {f : List Content → List Content} {l : List β}
    (hf : ∀ e, ofOpen { e with done := f e.done } = ofOpen e ++ l) (h : b.addContent f = .ok b') :
    b'.listed ofRoot ofOpen = b.listed ofRoot ofOpen ++ l := by
  unfold addContent at h
  split at h
  · next parent outer hstack =>
    cases h
    rw [listed, listed, hstack, List.reverse_cons, List.reverse_cons, List.flatMap_append,
      List.flatMap_append, List.flatMap_singleton, List.flatMap_singleton, hf]
    simp only [List.append_assoc]
  · cases h

theorem listed_attach {n : Node}
    (hn : ∀ e, ofOpen { e with done := n.toContent :: e.done } = ofOpen e ++ ofRoot n)
    (h : b.attach n = .ok b') : b'.listed ofRoot ofOpen = b.listed ofRoot ofOpen ++ ofRoot n := by
  unfold attach at h
  split at h
  · next parent outer hstack =>
    exact listed_addContent (f := (n.toContent :: ·)) hn (by rw [addContent, hstack]; exact h)
  · next hstack =>
    split at h
    · next hroot =>
      cases h
      rw [listed, listed, hstack, Option.isNone_iff_eq_none.mp hroot]
      show [n].flatMap ofRoot ++ [] = ofRoot n
      rw [List.flatMap_singleton, List.append_nil]
    · cases h

/-- The innermost element is listed last. -/
theorem listed_of_stack {e : OpenElement} {outer : List OpenElement} (h : b.stack = e :: outer) :
    b.listed ofRoot ofOpen = listed ofRoot ofOpen { b with stack := outer } ++ ofOpen e := by
  rw [← listed_push, ← h]

end Listed

/-! ## Properties that are kept -/

/-- The property is one of all that is open, and was one of the root. -/
structure Keeps (Q : OpenElement → Prop) (b : Builder) : Prop where
  stack : ∀ e ∈ b.stack, Q e
  root : ∀ n, b.root = some n → ∃ e, Q e ∧ e.toNode = n

section Steps

variable {Q : OpenElement → Prop} {b b' : Builder}

theorem keeps_initial : initial.Keeps Q where
  stack := fun _ h => nomatch h
  root := fun _ h => nomatch h

/-- The innermost open element may become another one. -/
theorem Keeps.withInnermost (h : b.Keeps Q) {parent e : OpenElement} {outer : List OpenElement}
    (hstack : b.stack = parent :: outer) (he : Q e) : Keeps Q { b with stack := e :: outer } := by
  have hall := h.stack
  rw [hstack] at hall
  exact ⟨List.forall_mem_cons.mpr ⟨he, (List.forall_mem_cons.mp hall).2⟩, h.root⟩

theorem Keeps.attach (hQ : Kept Q) (h : b.Keeps Q) {e : OpenElement} (he : Q e)
    (hattach : b.attach e.toNode = .ok b') : b'.Keeps Q := by
  unfold Builder.attach at hattach
  split at hattach
  · next parent outer hstack =>
    cases hattach
    exact h.withInnermost hstack (hQ.element (h.stack parent (hstack ▸ List.mem_cons_self ..)) he)
  · split at hattach
    · cases hattach
      refine ⟨h.stack, fun n hn => ?_⟩
      cases hn
      exact ⟨e, he, rfl⟩
    · cases hattach

theorem Keeps.addContent (h : b.Keeps Q) {f : List Content → List Content}
    (hf : ∀ e, Q e → Q { e with done := f e.done }) (hadd : b.addContent f = .ok b') :
    b'.Keeps Q := by
  unfold Builder.addContent at hadd
  split at hadd
  · next parent outer hstack =>
    cases hadd
    exact h.withInnermost hstack (hf _ (h.stack parent (hstack ▸ List.mem_cons_self ..)))
  · cases hadd

/-- **No event takes the property away.** -/
theorem Keeps.step (hQ : Kept Q) (h : b.Keeps Q) {event : Event} (hstep : b.step event = .ok b') :
    b'.Keeps Q := by
  cases event with
  | declaration cs =>
    rw [Builder.step] at hstep
    split at hstep
    · cases hstep
    · cases hstep
      exact h
    · cases hstep
      exact ⟨h.stack, h.root⟩
  | start name cs =>
    rw [Builder.step] at hstep
    split at hstep
    · cases hstep
    · next attributes hread =>
      cases hstep
      exact ⟨List.forall_mem_cons.mpr ⟨hQ.opened hread _, h.stack⟩, h.root⟩
  | empty name cs =>
    -- An empty element is one that is closed as soon as it was opened.
    rw [Builder.step] at hstep
    split at hstep
    · cases hstep
    · next attributes hread => exact h.attach hQ (hQ.opened hread (String.ofList name)) hstep
  | close name =>
    rw [Builder.step] at hstep
    split at hstep
    · cases hstep
    · next e outer hstack =>
      split at hstep
      · have hall := h.stack
        rw [hstack] at hall
        obtain ⟨he, houter⟩ := List.forall_mem_cons.mp hall
        have hpopped : Keeps Q { b with stack := outer } := ⟨houter, h.root⟩
        exact hpopped.attach hQ he hstep
      · cases hstep
  | text raw =>
    rw [Builder.step] at hstep
    split at hstep
    · cases hstep
    · next cs _ =>
      split at hstep
      · cases hstep
        exact h
      · next hblank =>
        refine h.addContent (fun e he => hQ.text he ?_) hstep
        rw [String.toList_ofList]
        exact Bool.eq_false_iff.mpr hblank
  | cdata cs => exact h.addContent (fun e he => hQ.cdata he _) hstep
  | comment => cases hstep; exact h
  | instruction => cases hstep; exact h
  | doctype => cases hstep; exact h
  | fault => cases hstep

theorem Keeps.run (hQ : Kept Q) {es : List Event} : ∀ {b b' : Builder}, b.Keeps Q →
    b.run es = .ok b' → b'.Keeps Q := by
  induction es with
  | nil =>
    intro b b' h hrun
    cases hrun
    exact h
  | cons event rest ih =>
    intro b b' h hrun
    rw [Builder.run] at hrun
    split at hrun
    · cases hrun
    · next taken hstep => exact ih (h.step hQ hstep) hrun

end Steps

end Builder

/-- **What is read was an open element with the property**, just before it was finished. -/
theorem Node.exists_open_of_parse {Q : OpenElement → Prop} (hQ : Kept Q) {s : String} {n : Node}
    (h : Node.parse s = .ok n) : ∃ e, Q e ∧ e.toNode = n := by
  obtain ⟨d, hd, rfl⟩ := map_eq_ok.mp h
  rw [Document.parse, Document.ofEvents] at hd
  split at hd
  · cases hd
  · next b hrun =>
    have hb := Builder.keeps_initial.run hQ hrun
    unfold Builder.finish at hd
    split at hd
    · cases hd
    · split at hd
      · next root hroot =>
        cases hd
        exact hb.root root hroot
      · cases hd

/-- What is so of CDATA and of all children stays so when CDATA is added. -/
theorem forall_addCdata {P : Content → Prop} (hP : ∀ t, P (.cdata t)) (s : String)
    {cs : List Content} (h : ∀ c ∈ cs, P c) : ∀ c ∈ addCdata s cs, P c := by
  unfold addCdata
  split
  · exact List.forall_mem_cons.mpr ⟨hP _, (List.forall_mem_cons.mp h).2⟩
  · exact List.forall_mem_cons.mpr ⟨hP _, h⟩

/-! ## Properties of tags -/

section Tags

variable {p : TagTest}

/-- The tag passes, and so do those of all children. -/
structure OpenElement.Passes (p : TagTest) (e : OpenElement) : Prop where
  tag : p e.name e.attributes = true
  done : ∀ c ∈ e.done, c.every p = true

theorem OpenElement.Passes.toNode {e : OpenElement} (h : e.Passes p) : e.toNode.every p = true :=
  every_element.mpr ⟨h.tag, everyIn_iff.mpr fun c hc => h.done c (List.mem_reverse.mp hc)⟩

theorem kept_passes (hp : ∀ {cs attributes}, Builder.attributesOf cs = .ok attributes →
    ∀ name, p name attributes = true) : Kept (OpenElement.Passes p) where
  opened hread name := ⟨hp hread name, fun _ hc => nomatch hc⟩
  element he hinner := ⟨he.tag, List.forall_mem_cons.mpr ⟨hinner.toNode, he.done⟩⟩
  text he _ := ⟨he.tag, List.forall_mem_cons.mpr ⟨rfl, he.done⟩⟩
  cdata he s := ⟨he.tag, forall_addCdata (fun _ => rfl) s he.done⟩

/-- **What is so of the attributes of any tag is so all over a tree that was read.** -/
theorem Node.every_of_parse (hp : ∀ {cs attributes},
    Builder.attributesOf cs = .ok attributes → ∀ name, p name attributes = true) {s : String}
    {n : Node} (h : Node.parse s = .ok n) : n.every p = true := by
  obtain ⟨e, he, rfl⟩ := Node.exists_open_of_parse (kept_passes hp) h
  exact he.toNode

end Tags

end EventWire.Xml

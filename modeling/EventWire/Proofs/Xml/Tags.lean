import EventWire.Proofs.Xml.Reader
import EventWire.Proofs.Xml.RoundTrip

/-!
# Tags in the order of the document

`Node.tags` lists names and attributes of an element and all elements in it as their start
tags come in the document, and `readTags` lists what the start tags among events are read as.
Taking in an event adds the tag that is read from it to those that the builder holds, and none
else (`Builder.tags_step`), so the tags of a document are those of its events
(`readTags_of_finish`). The events of a tree have the tags of the tree
(`readTags_childEvents`).
-/

namespace EventWire.Xml

/-- A tag: a name and attributes. -/
abbrev Tag := String × List (String × String)

mutual

/-- The tags of a child, in document order. -/
def Content.tags : Content → List Tag
  | .element name attributes children => (name, attributes) :: tagsIn children
  | .text _ => []
  | .cdata _ => []

/-- The tags of children, in document order. -/
def Content.tagsIn : List Content → List Tag
  | [] => []
  | c :: rest => c.tags ++ tagsIn rest

end

/-- The tags of an element and of all elements in it, in document order. -/
def Node.tags (n : Node) : List Tag :=
  n.toContent.tags

/-- The tag that is read from an event, if it is one of a start tag. -/
def Event.readTag? : Event → Option (String × Except XmlError (List (String × String)))
  | .start name attributes => some (String.ofList name, Builder.attributesOf attributes)
  | .empty name attributes => some (String.ofList name, Builder.attributesOf attributes)
  | _ => none

/-- The tags that are read from events. -/
def readTags (es : List Event) : List (String × Except XmlError (List (String × String))) :=
  es.filterMap Event.readTag?

/-- A tag as one that is read. -/
def asRead (t : Tag) : String × Except XmlError (List (String × String)) :=
  (t.1, .ok t.2)

theorem tagsIn_append (cs ds : List Content) :
    Content.tagsIn (cs ++ ds) = Content.tagsIn cs ++ Content.tagsIn ds := by
  induction cs with
  | nil => rw [Content.tagsIn, List.nil_append, List.nil_append]
  | cons c rest ih => rw [List.cons_append, Content.tagsIn, Content.tagsIn, ih, List.append_assoc]

theorem tagsIn_singleton (c : Content) : Content.tagsIn [c] = c.tags := by
  rw [Content.tagsIn, Content.tagsIn, List.append_nil]

theorem readTags_append (es fs : List Event) : readTags (es ++ fs) = readTags es ++ readTags fs :=
  List.filterMap_append

theorem readTags_cons (event : Event) (rest : List Event) :
    readTags (event :: rest) = event.readTag?.toList ++ readTags rest := by
  rw [readTags, readTags, List.filterMap_cons]
  cases event.readTag? with
  | none => rfl
  | some t => rfl

/-! ## Tags that a builder holds -/

/-- The tags of an open element, those of its children so far among them. -/
def OpenElement.tags (e : OpenElement) : List Tag :=
  (e.name, e.attributes) :: Content.tagsIn e.done.reverse

theorem OpenElement.tags_toNode (e : OpenElement) : e.toNode.tags = e.tags := by
  rw [Node.tags, Node.toContent, Content.tags, toNode, tags]

theorem OpenElement.tags_cons (e : OpenElement) (c : Content) :
    tags { e with done := c :: e.done } = e.tags ++ c.tags := by
  rw [tags, tags, List.reverse_cons, tagsIn_append, tagsIn_singleton, List.cons_append]

theorem tagsIn_reverse_addCdata (s : String) (done : List Content) :
    Content.tagsIn (addCdata s done).reverse = Content.tagsIn done.reverse := by
  have hcdata : ∀ t, Content.tags (.cdata t) = [] := fun t => by rw [Content.tags]
  unfold addCdata
  split
  · rw [List.reverse_cons, List.reverse_cons, tagsIn_append, tagsIn_append, tagsIn_singleton,
      tagsIn_singleton, hcdata, hcdata]
  · rw [List.reverse_cons, tagsIn_append, tagsIn_singleton, hcdata, List.append_nil]

namespace Builder

/-- The tags that were taken in: those of the root, and those of what is open. -/
def tags (b : Builder) : List Tag :=
  b.root.toList.flatMap Node.tags ++ b.stack.reverse.flatMap OpenElement.tags

section Steps

variable {b b' : Builder}

theorem tags_push (b : Builder) (e : OpenElement) :
    tags { b with stack := e :: b.stack } = b.tags ++ e.tags :=
  listed_push b e

theorem tags_attach {n : Node} (h : b.attach n = .ok b') : b'.tags = b.tags ++ n.tags :=
  listed_attach (fun e => OpenElement.tags_cons e n.toContent) h

theorem tags_addContent {f : List Content → List Content}
    (hf : ∀ done, Content.tagsIn (f done).reverse = Content.tagsIn done.reverse)
    (h : b.addContent f = .ok b') : b'.tags = b.tags := by
  have hopen (e : OpenElement) : OpenElement.tags { e with done := f e.done } = e.tags ++ [] := by
    rw [OpenElement.tags, OpenElement.tags, hf, List.append_nil]
  exact (listed_addContent hopen h).trans (List.append_nil _)

/-- **An event adds the tag that is read from it, and no other.** -/
theorem tags_step {event : Event} (h : b.step event = .ok b') :
    b'.tags.map asRead = b.tags.map asRead ++ event.readTag?.toList := by
  cases event with
  | declaration cs =>
    rw [step] at h
    split at h
    · cases h
    · cases h
      exact (List.append_nil _).symm
    · cases h
      exact (List.append_nil _).symm
  | start name cs =>
    rw [step] at h
    split at h
    · cases h
    · next attributes hread =>
      cases h
      rw [tags_push, List.map_append, Event.readTag?, hread]
      rfl
  | empty name cs =>
    rw [step] at h
    split at h
    · cases h
    · next attributes hread =>
      have htags : Node.tags { name := String.ofList name, attributes, children := [] }
          = [(String.ofList name, attributes)] := rfl
      rw [tags_attach h, List.map_append, htags, Event.readTag?, hread]
      rfl
  | close name =>
    rw [step] at h
    split at h
    · cases h
    · next e outer hstack =>
      split at h
      · -- The element goes from the stack to where its parent keeps its children.
        have hpopped : b.tags = tags { b with stack := outer } ++ e.tags := listed_of_stack hstack
        rw [tags_attach h, OpenElement.tags_toNode, ← hpopped]
        exact (List.append_nil _).symm
      · cases h
  | text raw =>
    rw [step] at h
    split at h
    · cases h
    · next cs _ =>
      split at h
      · cases h
        exact (List.append_nil _).symm
      · rw [tags_addContent (fun done => ?_) h]
        · exact (List.append_nil _).symm
        · rw [List.reverse_cons, tagsIn_append, tagsIn_singleton, Content.tags, List.append_nil]
  | cdata cs =>
    rw [tags_addContent (tagsIn_reverse_addCdata _) h]
    exact (List.append_nil _).symm
  | comment => cases h; exact (List.append_nil _).symm
  | instruction => cases h; exact (List.append_nil _).symm
  | doctype => cases h; exact (List.append_nil _).symm
  | fault => cases h

theorem tags_run {es : List Event} : ∀ {b b' : Builder}, b.run es = .ok b' →
    b'.tags.map asRead = b.tags.map asRead ++ readTags es := by
  induction es with
  | nil =>
    intro b b' h
    cases h
    exact (List.append_nil _).symm
  | cons event rest ih =>
    intro b b' h
    rw [run] at h
    split at h
    · cases h
    · next taken hstep =>
      rw [ih h, tags_step hstep, List.append_assoc, readTags_cons]

/-- An end tag may be out of place, or the matching goes on. -/
theorem matchEnds_cons (names : List (List Char)) (event : Event) (rest : List Event) :
    matchEnds names (event :: rest) = [.fault] ∨
      ∃ names', matchEnds names (event :: rest) = event :: matchEnds names' rest := by
  cases event with
  | close name =>
    cases names with
    | nil => exact Or.inl rfl
    | cons innermost outer =>
      rw [matchEnds]
      split
      · exact Or.inr ⟨outer, rfl⟩
      · exact Or.inl rfl
  | start name attributes => exact Or.inr ⟨name :: names, rfl⟩
  | _ => exact Or.inr ⟨names, rfl⟩

/-- No end tag was out of place in events that are taken in. -/
theorem matchEnds_of_run {es : List Event} : ∀ {names : List (List Char)} {b b' : Builder},
    b.run (matchEnds names es) = .ok b' → matchEnds names es = es := by
  induction es with
  | nil => exact fun _ => by rw [matchEnds]
  | cons event rest ih =>
    intro names b b' h
    rcases matchEnds_cons names event rest with hfault | ⟨names', hnext⟩
    · rw [hfault] at h
      cases h
    · rw [hnext, run] at h
      split at h
      · cases h
      · rw [hnext, ih h]

end Steps

end Builder

/-- **The tags of a document are those that are read from its events.** -/
theorem readTags_of_finish {declared : Option String} {es : List Event} {b : Builder}
    {d : Document}
    (hrun : Builder.run { declared, stack := [], root := none } (matchEnds [] es) = .ok b)
    (h : b.finish = .ok d) : readTags es = d.root.tags.map asRead := by
  have htags := Builder.tags_run hrun
  rw [Builder.matchEnds_of_run hrun] at htags
  unfold Builder.finish at h
  split at h
  · cases h
  · next hstack =>
    split at h
    · next root hroot =>
      cases h
      have hb : b.tags = root.tags := by
        rw [Builder.tags, hstack, hroot]
        show [root].flatMap Node.tags ++ [] = root.tags
        rw [List.flatMap_singleton, List.append_nil]
      rw [← hb, htags]
      rfl
    · cases h

/-! ## Tags of written trees -/

theorem readTags_textEvents (pending : List Char) : readTags (textEvents pending) = [] := by
  unfold textEvents
  split
  · rfl
  · rfl

theorem readTags_cdata (chunks : List (List Char)) : readTags (chunks.map .cdata) = [] := by
  induction chunks with
  | nil => rfl
  | cons chunk more ih => exact ih

theorem readTags_elementEvents {name : String} {attributes : List (String × String)}
    {children : List Content} {inner : List Event}
    (hread : Builder.attributesOf (attributes.flatMap attributeText) = .ok attributes)
    (hinner : readTags inner = (Content.tagsIn children).map asRead) :
    readTags (elementEvents name attributes children inner)
      = asRead (name, attributes) :: (Content.tagsIn children).map asRead := by
  have htag : (String.ofList name.toList,
      Builder.attributesOf (attributes.flatMap attributeText)) = asRead (name, attributes) := by
    rw [hread, String.ofList_toList]
    rfl
  unfold elementEvents
  split
  · next hnil =>
    rw [List.isEmpty_iff.mp hnil, Content.tagsIn, ← htag]
    rfl
  · rw [readTags_append, ← List.singleton_append, readTags_append, hinner, ← htag]
    show _ ++ [] = _
    rw [List.append_nil]
    rfl

/-- **The events of children have the tags of the children**, if their attributes are read. -/
theorem readTags_childEvents (cs : List Content) : Content.everyIn readNames cs = true →
    Content.everyIn distinctAttributes cs = true → ∀ pending,
      readTags (childEvents pending cs) = (Content.tagsIn cs).map asRead := by
  induction cs using childrenInduction with
  | nil =>
    intro _ _ pending
    rw [childEvents, readTags_textEvents, Content.tagsIn]
    rfl
  | text s cs ih =>
    intro hnames hdistinct pending
    rw [childEvents, Content.tagsIn, Content.tags]
    exact ih (everyIn_cons.mp hnames).2 (everyIn_cons.mp hdistinct).2 _
  | cdata s cs ih =>
    intro hnames hdistinct pending
    rw [childEvents_cdata, readTags_append, readTags_append, readTags_textEvents, cdataEvents,
      readTags_cdata, Content.tagsIn, Content.tags]
    exact ih (everyIn_cons.mp hnames).2 (everyIn_cons.mp hdistinct).2 _
  | element name attributes children cs ihchildren ih =>
    intro hnames hdistinct pending
    obtain ⟨helement, hcs⟩ := everyIn_cons.mp hnames
    obtain ⟨hattributes, hchildren⟩ := every_element.mp helement
    obtain ⟨helement', hcs'⟩ := everyIn_cons.mp hdistinct
    obtain ⟨hattributes', hchildren'⟩ := every_element.mp helement'
    have hread := attributesOf_attributes (List.all_eq_true.mp hattributes)
      (of_decide_eq_true hattributes')
    rw [childEvents_element, readTags_append, readTags_append, readTags_textEvents,
      readTags_elementEvents hread (ihchildren hchildren hchildren' []), ih hcs hcs' [],
      Content.tagsIn, Content.tags]
    simp only [List.nil_append, List.cons_append, List.map_append, List.map_cons]

end EventWire.Xml

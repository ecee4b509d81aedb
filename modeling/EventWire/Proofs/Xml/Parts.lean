import EventWire.Proofs.Xml.Normal
import EventWire.Proofs.Xml.Reader

/-!
# Trees in preorder

`Node.parts` lists an element in preorder: where it opens, its children, and where it closes.
A builder takes parts in one after the other (`Builder.takeAll`).

If it keeps every section of CDATA for itself, it is the inverse of that list: it makes the
element of its parts (`takeAll_parts`), and what it has made has the parts that it took
(`parts_takeAll`). So no two elements have the same parts (`Node.parts_injective`).

If it joins neighbouring CDATA, as readers do, it does at every point of time what the other
builder does, with what is there merged (`takeAll_merged`). So the stack of open elements and
the recursion over the tree come to the same.
-/

namespace EventWire.Xml

/-- A part of a document that leaves a trace in its tree. -/
inductive Part where
  | opening (name : String) (attributes : List (String × String))
  | closing (name : String)
  | text (s : String)
  | cdata (s : String)
  deriving DecidableEq

mutual

/-- The parts of a child, in preorder. -/
def Content.parts : Content → List Part
  | .element name attributes children =>
    .opening name attributes :: (partsIn children ++ [.closing name])
  | .text s => [.text s]
  | .cdata s => [.cdata s]

/-- The parts of children, in preorder. -/
def Content.partsIn : List Content → List Part
  | [] => []
  | c :: rest => c.parts ++ partsIn rest

end

/-- The parts of an element, in preorder. -/
def Node.parts (n : Node) : List Part :=
  n.toContent.parts

mutual

/-- A child with neighbouring CDATA in it merged. -/
def Content.merged : Content → Content
  | .element name attributes children => .element name attributes (joinCdata (mergedAll children))
  | .text s => .text s
  | .cdata s => .cdata s

/-- Children with neighbouring CDATA in each of them merged. -/
def Content.mergedAll : List Content → List Content
  | [] => []
  | c :: rest => c.merged :: mergedAll rest

end

/-- An element with neighbouring CDATA in it merged. -/
def Node.merged (n : Node) : Node :=
  { n with children := joinCdata (Content.mergedAll n.children) }

theorem Node.toContent_merged (n : Node) : n.merged.toContent = n.toContent.merged := by
  rw [Node.toContent, Node.toContent, Content.merged]
  rfl

theorem partsIn_append (cs ds : List Content) :
    Content.partsIn (cs ++ ds) = Content.partsIn cs ++ Content.partsIn ds := by
  induction cs with
  | nil => rw [Content.partsIn, List.nil_append, List.nil_append]
  | cons c rest ih =>
    rw [List.cons_append, Content.partsIn, Content.partsIn, ih, List.append_assoc]

theorem partsIn_singleton (c : Content) : Content.partsIn [c] = c.parts := by
  rw [Content.partsIn, Content.partsIn, List.append_nil]

theorem mergedAll_append (cs ds : List Content) :
    Content.mergedAll (cs ++ ds) = Content.mergedAll cs ++ Content.mergedAll ds := by
  induction cs with
  | nil => rw [Content.mergedAll, List.nil_append, List.nil_append]
  | cons c rest ih =>
    rw [List.cons_append, Content.mergedAll, Content.mergedAll, ih, List.cons_append]

/-! ## Taking parts in -/

/-- Adds CDATA beside what is there. -/
def keepCdata (s : String) (done : List Content) : List Content :=
  .cdata s :: done

namespace OpenElement

/-- The parts of an open element so far. -/
def parts (e : OpenElement) : List Part :=
  .opening e.name e.attributes :: Content.partsIn e.done.reverse

/-- An open element with the CDATA in it merged. -/
def merged (e : OpenElement) : OpenElement :=
  { e with done := (Content.mergedAll e.done.reverse).foldl stack [] }

theorem parts_toNode (e : OpenElement) : e.toNode.parts = e.parts ++ [.closing e.name] := by
  rw [Node.parts, Node.toContent, Content.parts, toNode, parts, List.cons_append]

theorem parts_cons (e : OpenElement) (c : Content) :
    parts { e with done := c :: e.done } = e.parts ++ c.parts := by
  rw [parts, parts, List.reverse_cons, partsIn_append, partsIn_singleton, List.cons_append]

theorem merged_cons (e : OpenElement) (c : Content) :
    merged { e with done := c :: e.done }
      = { e.merged with done := stack e.merged.done c.merged } := by
  rw [merged, merged, List.reverse_cons, mergedAll_append, List.foldl_append]
  rfl

theorem toNode_merged (e : OpenElement) : e.merged.toNode = e.toNode.merged := by
  have hjoined := (reverse_foldl_stack (Content.mergedAll e.done.reverse)).1 []
    (fun _ _ h => nomatch h)
  rw [toNode, toNode, merged, Node.merged]
  exact congrArg _ hjoined

end OpenElement

namespace Builder

/-- Takes a part in; `add` puts CDATA on top of the children that are done. -/
def take (add : String → List Content → List Content) (b : Builder) :
    Part → Except XmlError Builder
  | .opening name attributes =>
    .ok { b with stack := { name, attributes, done := [] } :: b.stack }
  | .closing name =>
    match b.stack with
    | [] => .error (.mismatchedEnd "" name)
    | e :: outer =>
      if e.name = name then { b with stack := outer }.attach e.toNode
      else .error (.mismatchedEnd e.name name)
  | .text s => b.addContent (.text s :: ·)
  | .cdata s => b.addContent (add s)

/-- Takes parts in, one after the other. -/
def takeAll (add : String → List Content → List Content) (b : Builder) (ps : List Part) :
    Except XmlError Builder :=
  ps.foldlM (take add) b

theorem takeAll_cons (add : String → List Content → List Content) (b : Builder) (p : Part)
    (ps : List Part) : b.takeAll add (p :: ps) = b.take add p >>= fun b' => b'.takeAll add ps :=
  List.foldlM_cons

theorem takeAll_append (add : String → List Content → List Content) (b : Builder)
    (ps qs : List Part) :
    b.takeAll add (ps ++ qs) = b.takeAll add ps >>= fun b' => b'.takeAll add qs :=
  List.foldlM_append

/-! ## What was taken in -/

/-- The parts that were taken in: those of the root, and those of what is open. -/
def parts (b : Builder) : List Part :=
  b.root.toList.flatMap Node.parts ++ b.stack.reverse.flatMap OpenElement.parts

section Parts

variable {b b' : Builder} {p : Part}

theorem parts_push (b : Builder) (e : OpenElement) :
    parts { b with stack := e :: b.stack } = b.parts ++ e.parts :=
  listed_push b e

theorem parts_addContent {c : Content} (h : b.addContent (c :: ·) = .ok b') :
    b'.parts = b.parts ++ c.parts :=
  listed_addContent (fun e => OpenElement.parts_cons e c) h

theorem parts_attach {n : Node} (h : b.attach n = .ok b') : b'.parts = b.parts ++ n.parts :=
  listed_attach (fun e => OpenElement.parts_cons e n.toContent) h

/-- **What was taken in has the parts that were taken.** -/
theorem parts_take (h : b.take keepCdata p = .ok b') : b'.parts = b.parts ++ [p] := by
  cases p with
  | opening name attributes =>
    cases h
    rw [parts_push]
    rfl
  | closing name =>
    rw [take] at h
    split at h
    · cases h
    · next e outer hstack =>
      split at h
      · next hname =>
        -- The element goes from the stack to where its parent keeps its children.
        have hpopped : b.parts = parts { b with stack := outer } ++ e.parts :=
          listed_of_stack hstack
        rw [parts_attach h, OpenElement.parts_toNode, hname, hpopped, List.append_assoc]
      · cases h
  | text s =>
    rw [parts_addContent h, Content.parts]
  | cdata s =>
    rw [parts_addContent h, Content.parts]

end Parts

/-- **The children of an open element are made of their parts.** -/
theorem takeAll_partsIn (cs : List Content) : ∀ (b : Builder) (e : OpenElement)
    (outer : List OpenElement),
    takeAll keepCdata { b with stack := e :: outer } (Content.partsIn cs)
      = .ok { b with stack := { e with done := cs.reverse ++ e.done } :: outer } := by
  induction cs using childrenInduction with
  | nil =>
    intro b e outer
    rw [Content.partsIn]
    rfl
  | text s cs ih =>
    intro b e outer
    rw [Content.partsIn, Content.parts, List.singleton_append, takeAll_cons, take]
    show takeAll keepCdata _ _ = _
    rw [ih, List.reverse_cons, List.append_assoc]
    rfl
  | cdata s cs ih =>
    intro b e outer
    rw [Content.partsIn, Content.parts, List.singleton_append, takeAll_cons, take]
    show takeAll keepCdata _ _ = _
    rw [ih, List.reverse_cons, List.append_assoc]
    rfl
  | element name attributes children cs ihchildren ih =>
    -- The element is opened above `e`, takes its children in, and is closed into `e`.
    intro b e outer
    let inner : OpenElement := { name, attributes, done := [] }
    have hopening : take keepCdata { b with stack := e :: outer } (.opening name attributes)
        = .ok { b with stack := inner :: e :: outer } := rfl
    have hclosing : take keepCdata
        { b with stack := { inner with done := children.reverse ++ inner.done } :: e :: outer }
        (.closing name) = .ok { b with
          stack := { e with done := .element name attributes children :: e.done } :: outer } := by
      rw [take]
      dsimp only
      rw [if_pos rfl, List.append_nil, attach]
      dsimp only
      rw [OpenElement.toNode, Node.toContent, List.reverse_reverse]
    rw [Content.partsIn, Content.parts, takeAll_append, takeAll_cons, hopening, ok_bind,
      takeAll_append, ihchildren, ok_bind, takeAll_cons, hclosing, ok_bind]
    show takeAll keepCdata _ _ = _
    rw [ih, List.reverse_cons, List.append_assoc]
    rfl

theorem parts_takeAll {ps : List Part} : ∀ {b b' : Builder}, b.takeAll keepCdata ps = .ok b' →
    b'.parts = b.parts ++ ps := by
  induction ps with
  | nil =>
    intro b b' h
    cases h
    exact (List.append_nil _).symm
  | cons p rest ih =>
    intro b b' h
    rw [takeAll_cons] at h
    obtain ⟨taken, hp, hrest⟩ := bind_eq_ok.mp h
    rw [ih hrest, parts_take hp, List.append_assoc]
    rfl

/-- **An element is made of its parts.** -/
theorem takeAll_parts (n : Node) :
    initial.takeAll keepCdata n.parts = .ok { initial with root := some n } := by
  have hchildren := takeAll_partsIn n.children initial
    { name := n.name, attributes := n.attributes, done := [] } initial.stack
  have hclosing : take keepCdata
      { initial with stack :=
        { name := n.name, attributes := n.attributes, done := n.children.reverse ++ [] } ::
          initial.stack }
      (.closing n.name) = .ok { initial with root := some n } := by
    rw [take]
    dsimp only
    rw [if_pos rfl, List.append_nil, OpenElement.toNode, List.reverse_reverse]
    rfl
  rw [Node.parts, Node.toContent, Content.parts, takeAll_cons, take, ok_bind, takeAll_append,
    hchildren, ok_bind, takeAll_cons, hclosing]
  rfl

/-! ## CDATA kept apart, and CDATA joined -/

/-- What a builder holds, with the CDATA in it merged. -/
def merged (b : Builder) : Builder :=
  { b with stack := b.stack.map OpenElement.merged, root := b.root.map Node.merged }

theorem addContent_merged (b : Builder) {c : Content} {f : List Content → List Content}
    (hf : ∀ done, f done = Xml.stack done c.merged) :
    b.merged.addContent f = (b.addContent (c :: ·)).map merged := by
  obtain ⟨declared, stack, root⟩ := b
  cases stack with
  | nil => rfl
  | cons parent outer =>
    have hparent : { parent.merged with done := f parent.merged.done }
        = OpenElement.merged { parent with done := c :: parent.done } := by
      rw [hf, OpenElement.merged_cons]
    exact congrArg (fun e => Except.ok (Builder.mk declared (e :: outer.map OpenElement.merged)
      (root.map Node.merged))) hparent

theorem attach_merged (b : Builder) (n : Node) :
    b.merged.attach n.merged = (b.attach n).map merged := by
  obtain ⟨declared, stack, root⟩ := b
  cases stack with
  | nil =>
    cases root with
    | none => rfl
    | some r => rfl
  | cons parent outer =>
    refine addContent_merged { declared, stack := parent :: outer, root } fun done => ?_
    rw [Node.toContent_merged, Node.toContent, Content.merged]
    rfl

/-- **Joining CDATA as it comes is as good as merging it at any later time.** -/
theorem take_merged (b : Builder) (p : Part) :
    b.merged.take addCdata p = (b.take keepCdata p).map merged := by
  cases p with
  | opening name attributes => rfl
  | closing name =>
    obtain ⟨declared, stack, root⟩ := b
    cases stack with
    | nil => rfl
    | cons e outer =>
      have hattach := attach_merged { declared, stack := outer, root } e.toNode
      show (if e.name = name then
          (merged { declared, stack := outer, root }).attach e.merged.toNode
        else .error (.mismatchedEnd e.name name)) = _
      rw [take, OpenElement.toNode_merged, hattach]
      dsimp only
      split
      · rfl
      · rfl
  | text s => exact addContent_merged b fun done => by rw [Content.merged]; rfl
  | cdata s => exact addContent_merged b fun done => by rw [Content.merged]; rfl

theorem takeAll_merged (ps : List Part) : ∀ b : Builder,
    b.merged.takeAll addCdata ps = (b.takeAll keepCdata ps).map merged := by
  induction ps with
  | nil => exact fun _ => rfl
  | cons p rest ih =>
    intro b
    rw [takeAll_cons, takeAll_cons, take_merged]
    cases b.take keepCdata p with
    | error e => rfl
    | ok b' => exact ih b'

end Builder

/-- **Elements with the same parts are the same.** -/
theorem Node.parts_injective {n m : Node} (h : n.parts = m.parts) : n = m := by
  have hmade := Builder.takeAll_parts n
  rw [h, Builder.takeAll_parts m] at hmade
  cases hmade
  rfl

end EventWire.Xml

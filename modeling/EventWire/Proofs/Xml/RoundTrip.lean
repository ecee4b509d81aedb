import EventWire.Proofs.Xml.Declaration
import EventWire.Proofs.Xml.Normal
import EventWire.Proofs.Xml.Written

/-!
# Written XML is read as its normal form

`childEvents` lists the events of an element's children, with neighbouring texts in
one event. That is what the written children are cut into (`lex_childrenText`), every
end tag among them names the element that is open (`matchEnds_childEvents`), and
taking them in is the walk `gather` (`run_childEvents`).

`parse_writeDocument_of_encoding` puts this together: a document that is written is read as
the encoding it declares and the normal form of its root. `parse_writeDocument` is the case of
valid names and the charsets that are known.
-/

namespace EventWire.Xml

/-! ## The events of a tree -/

/-- The event of a text, if there is any text. -/
def textEvents (cs : List Char) : List Event :=
  if cs.isEmpty then [] else [.text (escape cs)]

/-- The events of an element, by those of its children. -/
def elementEvents (name : String) (attributes : List (String × String)) (children : List Content)
    (inner : List Event) : List Event :=
  if children.isEmpty then [.empty name.toList (attributes.flatMap attributeText)]
  else .start name.toList (attributes.flatMap attributeText) :: inner ++ [.close name.toList]

mutual

/-- The events of a child other than text. -/
def Content.events : Content → List Event
  | .element name attributes children =>
    elementEvents name attributes children (childEvents [] children)
  | .text _ => []
  | .cdata s => cdataEvents s.toList

/-- The events of children, after text that is not finished. -/
def childEvents (pending : List Char) : List Content → List Event
  | [] => textEvents pending
  | .text s :: rest => childEvents (pending ++ s.toList) rest
  | c :: rest => textEvents pending ++ c.events ++ childEvents [] rest

end

theorem childEvents_cdata (pending : List Char) (s : String) (rest : List Content) :
    childEvents pending (.cdata s :: rest)
      = textEvents pending ++ cdataEvents s.toList ++ childEvents [] rest := by
  rw [childEvents, Content.events]
  exact fun s => Content.noConfusion

theorem childEvents_element (pending : List Char) (name : String)
    (attributes : List (String × String)) (children rest : List Content) :
    childEvents pending (.element name attributes children :: rest)
      = textEvents pending ++ elementEvents name attributes children (childEvents [] children)
        ++ childEvents [] rest := by
  rw [childEvents, Content.events]
  exact fun s => Content.noConfusion

/-! ## Cutting -/

theorem lex_escape (pending rest : List Char) :
    lex (escape pending ++ '<' :: rest) = textEvents pending ++ lex ('<' :: rest) := by
  cases pending with
  | nil => rfl
  | cons c more =>
    have hne : escape (c :: more) ≠ [] := escape_ne_nil (List.cons_ne_nil _ _)
    exact lex_text hne (not_mem_escape (Or.inl rfl) _) rest

/-- An element is cut into its events when its children are. -/
theorem lex_elementText {name : String} {attributes : List (String × String)}
    {children : List Content} {inner : List Char} (hname : isValidName name = true)
    (hattributes : Enclosed (attributes.flatMap attributeText))
    (hinner : ∀ rest, lex (inner ++ '<' :: rest) = childEvents [] children ++ lex ('<' :: rest))
    (rest : List Char) :
    lex (elementText name attributes children inner ++ rest)
      = elementEvents name attributes children (childEvents [] children) ++ lex rest := by
  unfold elementText elementEvents
  split
  · have hempty := lex_emptyTag hname hattributes rest
    rw [List.append_assoc]
    exact hempty
  · have hstart := lex_startTag hname hattributes
      (inner ++ '<' :: '/' :: name.toList ++ '>' :: rest)
    have hend := lex_endTag hname rest
    have hchildren := hinner ('/' :: name.toList ++ '>' :: rest)
    simp only [List.append_assoc, List.cons_append, List.nil_append] at hstart hend hchildren ⊢
    rw [hstart, hchildren, hend]

theorem exists_elementText (name : String) (attributes : List (String × String))
    (children : List Content) (inner : List Char) :
    ∃ more, elementText name attributes children inner = '<' :: more := by
  unfold elementText
  split
  · exact ⟨_, rfl⟩
  · exact ⟨_, rfl⟩

/-- A piece that begins with a bracket ends the text in front of it. -/
theorem lex_between {piece later rest : List Char} {events more : List Event}
    (hopen : ∃ inside, piece = '<' :: inside)
    (hpiece : ∀ after, lex (piece ++ after) = events ++ lex after)
    (hlater : lex (later ++ '<' :: rest) = more ++ lex ('<' :: rest)) (pending : List Char) :
    lex (escape pending ++ (piece ++ later) ++ '<' :: rest)
      = textEvents pending ++ events ++ more ++ lex ('<' :: rest) := by
  obtain ⟨inside, rfl⟩ := hopen
  have hpending := lex_escape pending (inside ++ (later ++ '<' :: rest))
  rw [← List.cons_append, hpiece, hlater] at hpending
  simp only [List.append_assoc] at hpending ⊢
  exact hpending

/-- **Written children are cut into their events.** The text in front of them is not
finished before the next tag, which is why it takes part in the induction. -/
theorem lex_childrenText (cs : List Content) :
    Content.everyIn readableAttributes cs = true →
    ∀ {text : List Char}, childrenText cs = .ok text → ∀ pending rest,
      lex (escape pending ++ text ++ '<' :: rest)
        = childEvents pending cs ++ lex ('<' :: rest) := by
  induction cs using childrenInduction with
  | nil =>
    intro _ text h pending rest
    rw [childrenText] at h
    cases h
    rw [List.append_nil, lex_escape, childEvents]
  | text s cs ih =>
    intro hevery text h pending rest
    obtain ⟨first, later, hfirst, hlater, rfl⟩ := childrenText_cons_eq_ok h
    rw [contentText] at hfirst
    cases hfirst
    -- Nothing is cut here: the text is added to what is not finished.
    rw [childEvents, ← List.append_assoc, ← escape_append]
    exact ih (everyIn_cons.mp hevery).2 hlater _ rest
  | cdata s cs ih =>
    intro hevery text h pending rest
    obtain ⟨first, later, hfirst, hlater, rfl⟩ := childrenText_cons_eq_ok h
    rw [contentText] at hfirst
    cases hfirst
    rw [childEvents_cdata]
    exact lex_between ⟨_, rfl⟩ (lex_cdataText s.toList)
      (ih (everyIn_cons.mp hevery).2 hlater [] rest) pending
  | element name attributes children cs ihchildren ih =>
    intro hevery text h pending rest
    obtain ⟨first, later, hfirst, hlater, rfl⟩ := childrenText_cons_eq_ok h
    obtain ⟨hname, inner, hinner, rfl⟩ := contentText_element_eq_ok hfirst
    obtain ⟨helement, hcs⟩ := everyIn_cons.mp hevery
    obtain ⟨hattributes, hchildren⟩ := every_element.mp helement
    rw [childEvents_element]
    exact lex_between (exists_elementText name attributes children inner)
      (lex_elementText hname (enclosed_of_readable hattributes).2
        (ihchildren hchildren hinner []))
      (ih hcs hlater [] rest) pending

/-! ## Matching end tags -/

theorem matchEnds_textEvents (names : List (List Char)) (pending : List Char) (rest : List Event) :
    matchEnds names (textEvents pending ++ rest) = textEvents pending ++ matchEnds names rest := by
  unfold textEvents
  split
  · rfl
  · rfl

theorem matchEnds_cdata (names : List (List Char)) (chunks : List (List Char)) (rest : List Event) :
    matchEnds names (chunks.map .cdata ++ rest) = chunks.map .cdata ++ matchEnds names rest := by
  induction chunks with
  | nil => rfl
  | cons chunk more ih =>
    rw [List.map_cons, List.cons_append, List.cons_append, ← ih]
    rfl

theorem matchEnds_elementEvents {name : String} {attributes : List (String × String)}
    {children : List Content} {inner : List Event}
    (h : ∀ names rest, matchEnds names (inner ++ rest) = inner ++ matchEnds names rest)
    (names : List (List Char)) (rest : List Event) :
    matchEnds names (elementEvents name attributes children inner ++ rest)
      = elementEvents name attributes children inner ++ matchEnds names rest := by
  unfold elementEvents
  split
  · rfl
  · rw [List.append_assoc, List.cons_append, matchEnds, h, List.append_assoc, List.singleton_append,
      matchEnds, if_pos rfl]
    rfl

/-- No end tag of a tree is out of place. -/
theorem matchEnds_childEvents (cs : List Content) : ∀ pending names rest,
    matchEnds names (childEvents pending cs ++ rest)
      = childEvents pending cs ++ matchEnds names rest := by
  induction cs using childrenInduction with
  | nil =>
    intro pending names rest
    rw [childEvents, matchEnds_textEvents]
  | text s cs ih =>
    intro pending names rest
    rw [childEvents, ih]
  | cdata s cs ih =>
    intro pending names rest
    rw [childEvents_cdata, List.append_assoc, List.append_assoc, matchEnds_textEvents, cdataEvents,
      matchEnds_cdata, ih, List.append_assoc, List.append_assoc]
  | element name attributes children cs ihchildren ih =>
    intro pending names rest
    rw [childEvents_element, List.append_assoc, List.append_assoc, matchEnds_textEvents,
      matchEnds_elementEvents (ihchildren []), ih, List.append_assoc, List.append_assoc]

/-! ## Building the tree -/

namespace Builder

theorem run_singleton (b : Builder) (event : Event) : b.run [event] = b.step event := by
  rw [run]
  cases b.step event with
  | error e => rfl
  | ok b => rfl

theorem run_append {b b' : Builder} {es : List Event} (h : b.run es = .ok b') (rest : List Event) :
    b.run (es ++ rest) = b'.run rest := by
  induction es generalizing b with
  | nil =>
    rw [run] at h
    cases h
    rfl
  | cons event more ih =>
    rw [run] at h
    rw [List.cons_append, run]
    cases hstep : b.step event with
    | error e => rw [hstep] at h; cases h
    | ok next =>
      rw [hstep] at h
      exact ih h

section Children

variable {declared : Option String} {root : Option Node} {parent : OpenElement}
  {outer : List OpenElement}

/-- Text is added as it was before it was escaped, unless it is blank. -/
theorem run_textEvents (pending : List Char) :
    run { declared, stack := parent :: outer, root } (textEvents pending)
      = .ok { declared, root,
              stack := { parent with done := flush pending parent.done } :: outer } := by
  unfold textEvents flush
  cases pending with
  | nil => rfl
  | cons c more =>
    rw [List.isEmpty_cons, if_neg (by decide), run_singleton, step, unescape?_escape]
    dsimp only
    split
    · rfl
    · rfl

theorem addCdata_addCdata (s t : String) (done : List Content) :
    addCdata t (addCdata s done) = addCdata (s ++ t) done := by
  match done with
  | [] => rfl
  | .cdata u :: rest => simp only [addCdata, String.append_assoc]
  | .text _ :: _ => rfl
  | .element .. :: _ => rfl

/-- The sections of a CDATA text become one child again. -/
theorem run_cdata (chunk : List Char) (chunks : List (List Char)) :
    run { declared, stack := parent :: outer, root } ((chunk :: chunks).map .cdata)
      = .ok { declared, root, stack := { parent with
          done := addCdata (String.ofList (chunk ++ chunks.flatten)) parent.done } :: outer } := by
  induction chunks generalizing chunk parent with
  | nil =>
    rw [List.flatten_nil, List.append_nil]
    rfl
  | cons next more ih =>
    have hmore := @ih { parent with done := addCdata (String.ofList chunk) parent.done } next
    dsimp only at hmore
    rw [addCdata_addCdata, ← String.ofList_append, ← List.flatten_cons] at hmore
    rw [List.map_cons, run]
    exact hmore

theorem run_cdataEvents (s : String) :
    run { declared, stack := parent :: outer, root } (cdataEvents s.toList)
      = .ok { declared, root,
              stack := { parent with done := addCdata s parent.done } :: outer } := by
  rw [cdataEvents, run_cdata, append_flatten_cdataChunks, String.ofList_toList]

/-- An element is attached in its normal form when its children are gathered. -/
theorem run_elementEvents {b : Builder} {name : String} {attributes : List (String × String)}
    {children : List Content} (hnames : ∀ a ∈ attributes, isReadName a.1.toList = true)
    (hdistinct : (attributes.map (·.1)).Nodup)
    (hchildren : ∀ declared root parent outer,
      run { declared, stack := parent :: outer, root } (childEvents [] children)
        = .ok { declared, root,
                stack := { parent with done := gather [] parent.done children } :: outer }) :
    b.run (elementEvents name attributes children (childEvents [] children))
      = b.attach (Node.norm { name, attributes, children }) := by
  have hread := attributesOf_attributes hnames hdistinct
  unfold elementEvents
  split
  · next hnil =>
    rw [List.isEmpty_iff.mp hnil, run_singleton, step, hread]
    dsimp only
    rw [String.ofList_toList, Node.norm, Content.normAll]
    rfl
  · -- The element is opened on top of the stack, filled there and taken off again.
    have hinner := hchildren b.declared b.root { name, attributes, done := [] } b.stack
    have hnode : OpenElement.toNode { name, attributes, done := gather [] [] children }
        = Node.norm { name, attributes, children } := by
      rw [OpenElement.toNode, reverse_gather]
      rfl
    rw [List.cons_append, run, step, hread]
    dsimp only
    rw [String.ofList_toList, run_append hinner, run_singleton, step]
    dsimp only
    rw [String.ofList_toList, if_pos rfl, hnode]

end Children

/-- **Taking in the events of children is the walk to their normal form.** -/
theorem run_childEvents (cs : List Content) :
    Content.everyIn readableAttributes cs = true → Content.everyIn distinctAttributes cs = true →
    ∀ pending declared root parent outer,
      run { declared, stack := parent :: outer, root } (childEvents pending cs)
        = .ok { declared, root,
                stack := { parent with done := gather pending parent.done cs } :: outer } := by
  induction cs using childrenInduction with
  | nil =>
    intro _ _ pending declared root parent outer
    rw [childEvents, run_textEvents, gather]
  | text s cs ih =>
    intro hreadable hdistinct pending declared root parent outer
    rw [childEvents, gather]
    exact ih (everyIn_cons.mp hreadable).2 (everyIn_cons.mp hdistinct).2 _ _ _ _ _
  | cdata s cs ih =>
    intro hreadable hdistinct pending declared root parent outer
    rw [childEvents_cdata, List.append_assoc, run_append (run_textEvents pending),
      run_append (run_cdataEvents s), gather]
    exact ih (everyIn_cons.mp hreadable).2 (everyIn_cons.mp hdistinct).2 _ _ _ _ _
  | element name attributes children cs ihchildren ih =>
    intro hreadable hdistinct pending declared root parent outer
    obtain ⟨helement, hcs⟩ := everyIn_cons.mp hreadable
    obtain ⟨hattributes, hchildren⟩ := every_element.mp helement
    obtain ⟨helement', hcs'⟩ := everyIn_cons.mp hdistinct
    obtain ⟨hattributes', hchildren'⟩ := every_element.mp helement'
    rw [childEvents_element, List.append_assoc, run_append (run_textEvents pending),
      run_append (run_elementEvents (enclosed_of_readable hattributes).1
        (of_decide_eq_true hattributes') (ihchildren hchildren hchildren' [])), gather]
    exact ih hcs hcs' _ _ _ _ _

end Builder

/-! ## Documents -/

section Document

variable {root : Node} {text : List Char}

/-- The events of a written document, behind those of what stands before it. -/
theorem lex_root (hreadable : root.every readableAttributes = true)
    (h : contentText root.toContent = .ok text) :
    lex text = root.toContent.events := by
  obtain ⟨hattributes, hchildren⟩ := every_element.mp hreadable
  obtain ⟨hname, inner, hinner, rfl⟩ := contentText_element_eq_ok h
  have hlex : ∀ rest, lex (inner ++ '<' :: rest)
      = childEvents [] root.children ++ lex ('<' :: rest) :=
    lex_childrenText root.children hchildren hinner []
  have hcut := lex_elementText hname (enclosed_of_readable hattributes).2 hlex []
  rw [List.append_nil, lex_nil, List.append_nil] at hcut
  rw [hcut, Node.toContent, Content.events]

theorem matchEnds_root (names : List (List Char)) :
    matchEnds names root.toContent.events = root.toContent.events := by
  have h := @matchEnds_elementEvents root.name root.attributes root.children _
    (matchEnds_childEvents root.children []) names []
  rw [List.append_nil, matchEnds, List.append_nil] at h
  rw [Node.toContent, Content.events, h]

theorem run_root (hreadable : root.every readableAttributes = true)
    (hdistinct : root.every distinctAttributes = true) (declared : Option String) :
    Builder.run { declared, stack := [], root := none } root.toContent.events
      = .ok { declared, stack := [], root := some root.norm } := by
  obtain ⟨hattributes, hchildren⟩ := every_element.mp hreadable
  obtain ⟨hattributes', hchildren'⟩ := every_element.mp hdistinct
  rw [Node.toContent, Content.events, Builder.run_elementEvents (enclosed_of_readable hattributes).1
    (of_decide_eq_true hattributes') (Builder.run_childEvents _ hchildren hchildren' [])]
  rfl

/-- A written element begins with a bracket, never with a byte order mark. -/
theorem exists_contentText (h : contentText root.toContent = .ok text) :
    ∃ more, text = '<' :: more := by
  obtain ⟨-, inner, -, rfl⟩ := contentText_element_eq_ok h
  exact exists_elementText root.name root.attributes root.children inner

/-- Nothing is taken off a text that begins with a bracket as a byte order mark. -/
theorem events_bracket (more : List Char) :
    events ('<' :: more) = matchEnds [] (lex ('<' :: more)) := rfl

/-- A written document is cut into its declaration, if it has one, and what its root is cut
into. -/
theorem events_written {encoding : Option String}
    (hencoding : ∀ e ∈ encoding, ¬declarationEnd <:+: e.toList)
    (h : contentText root.toContent = .ok text) :
    events ((encoding.map declarationText).getD [] ++ text)
      = encoding.toList.map (fun e => .declaration (declarationAttributes e))
        ++ matchEnds [] (lex text) := by
  cases encoding with
  | none =>
    obtain ⟨more, rfl⟩ := exists_contentText h
    exact events_bracket more
  | some e =>
    have hlex := lex_declarationText (hencoding e rfl) text
    show events (declarationText e ++ text) = .declaration (declarationAttributes e) :: _
    rw [declarationText_append] at hlex ⊢
    rw [events_bracket, hlex]
    rfl

/-- Taking in a declaration leaves the rest to be taken in. -/
theorem Builder.run_declaration (encoding : Option String) (es : List Event) :
    Builder.initial.run
        (encoding.toList.map (fun e => .declaration (declarationAttributes e)) ++ es)
      = Builder.run { declared := encoding.map declaredText, stack := [], root := none } es := by
  cases encoding with
  | none => rfl
  | some e =>
    show Builder.run _ (.declaration (declarationAttributes e) :: es) = _
    rw [Builder.run, step_declaration]
    rfl

/-- **A written document is read as what it declares and the normal form of its
root**, whatever its attributes are called, if no quote in a name is left open. -/
theorem parse_writeDocument_of_encoding {encoding : Option String} {s : String}
    (hencoding : ∀ e ∈ encoding, ¬declarationEnd <:+: e.toList)
    (hreadable : root.every readableAttributes = true)
    (hdistinct : root.every distinctAttributes = true) (h : writeDocument root encoding = .ok s) :
    Document.parse s = .ok { declared := encoding.map declaredText, root := root.norm } := by
  unfold writeDocument at h
  split at h
  · next text htext =>
    cases h
    rw [Document.parse, String.toList_ofList, events_written hencoding htext,
      lex_root hreadable htext, matchEnds_root, Document.ofEvents, Builder.run_declaration,
      run_root hreadable hdistinct]
    rfl
  · cases h

theorem parse_writeDocument_of_readable {charset : Option Charset} {s : String}
    (hreadable : root.every readableAttributes = true)
    (hdistinct : root.every distinctAttributes = true)
    (h : writeDocument root (charset.map Charset.name) = .ok s) :
    Document.parse s = .ok { declared := charset.map Charset.name, root := root.norm } := by
  have hencoding : ∀ e ∈ charset.map Charset.name, ¬declarationEnd <:+: e.toList := by
    intro e he
    obtain ⟨c, -, rfl⟩ := Option.map_eq_some_iff.mp he
    exact not_infix_name c
  have hdeclared : (charset.map Charset.name).map declaredText = charset.map Charset.name := by
    rw [Option.map_map]
    congr 1
    exact funext declaredText_name
  rw [parse_writeDocument_of_encoding hencoding hreadable hdistinct h, hdeclared]

theorem parse_writeDocument {charset : Option Charset} {s : String}
    (hvalid : root.every validAttributes = true) (hdistinct : root.every distinctAttributes = true)
    (h : writeDocument root (charset.map Charset.name) = .ok s) :
    Document.parse s = .ok { declared := charset.map Charset.name, root := root.norm } :=
  parse_writeDocument_of_readable (Node.every_mono (fun _ _ => readableAttributes_of_valid) hvalid)
    hdistinct h

end Document

/-- **A written element is read as its normal form.** -/
theorem parse_write_of_readable {n : Node} {s : String}
    (hreadable : n.every readableAttributes = true) (hdistinct : n.every distinctAttributes = true)
    (h : n.write = .ok s) : Node.parse s = .ok n.norm := by
  have hparse := @parse_writeDocument_of_readable n none s hreadable hdistinct h
  rw [Node.parse, hparse]
  rfl

theorem parse_write {n : Node} {s : String} (hvalid : n.every validAttributes = true)
    (hdistinct : n.every distinctAttributes = true) (h : n.write = .ok s) :
    Node.parse s = .ok n.norm :=
  parse_write_of_readable (Node.every_mono (fun _ _ => readableAttributes_of_valid) hvalid)
    hdistinct h

end EventWire.Xml

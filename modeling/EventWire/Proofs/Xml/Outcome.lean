import EventWire.Proofs.Xml.Placed
import EventWire.Proofs.Xml.RoundTrip

/-!
# What becomes of a document

A reader takes events in as the parts that they are read as (`Builder.run_eq`), some of them
as none. So what it makes of events is said without a stack (`Outcome`): if the parts are those
of one element in preorder, it is that element with its CDATA merged; and else it is an error
that tells what is wrong first, from left to right: an event that cannot be read, a part out of
place, or, after all of them, an element that is still open, or nothing at all.

This holds of all events whose end tags fit (`Document.ofEvents_iff`), and so of the events of
every text (`endsMatch_events`).
-/

namespace EventWire.Xml

/-! ## Parts from events -/

/-- The parts that an event is read as, if its attributes, its entities, or the encoding
that it declares can be read. Blank text is read as nothing. -/
def Event.decode : Event → Except XmlError (List Part)
  | .declaration cs => (Builder.declaredEncoding cs).map fun _ => []
  | .start name cs =>
    (Builder.attributesOf cs).map fun attributes => [.opening (String.ofList name) attributes]
  | .empty name cs =>
    (Builder.attributesOf cs).map fun attributes =>
      [.opening (String.ofList name) attributes, .closing (String.ofList name)]
  | .close name => .ok [.closing (String.ofList name)]
  | .text raw =>
    match unescape? raw with
    | none => .error .content
    | some cs => .ok (if Text.blankOnly cs then [] else [.text (String.ofList cs)])
  | .cdata cs => .ok [.cdata (String.ofList cs)]
  | .comment => .ok []
  | .instruction => .ok []
  | .doctype => .ok []
  | .fault => .error .illFormed

/-- The parts that events are read as, if all of them can be read. -/
def decodeAll : List Event → Except XmlError (List Part)
  | [] => .ok []
  | event :: rest => do
    let ps ← event.decode
    let qs ← decodeAll rest
    return ps ++ qs

/-- The encoding that an event declares. -/
def Event.declares? : Event → Option String
  | .declaration cs => (Builder.declaredEncoding cs).toOption.join
  | _ => none

/-- The encoding that the last declaration with an encoding names. -/
def lastDeclared? (es : List Event) : Option String :=
  (es.filterMap Event.declares?).getLast?

/-- The names of the elements that are open after an event, innermost first. -/
def Event.namesAfter (names : List (List Char)) : Event → List (List Char)
  | .start name _ => name :: names
  | .close _ => names.tail
  | _ => names

/-- An end tag fits if it names the innermost open element, and all else does anyway. -/
def Event.Fits (names : List (List Char)) : Event → Prop
  | .close name => names.head? = some name
  | _ => True

/-- All end tags fit; `names` are those of the elements that are open before the events. -/
def EndsMatch (names : List (List Char)) : List Event → Prop
  | [] => True
  | event :: rest => event.Fits names ∧ EndsMatch (event.namesAfter names) rest

namespace Builder

/-- A builder with the encoding that was declared last. -/
def declaring (b : Builder) (encoding : Option String) : Builder :=
  { b with declared := encoding.or b.declared }

theorem attach_declaring (b : Builder) (encoding : Option String) (n : Node) :
    (b.declaring encoding).attach n = (b.attach n).map (·.declaring encoding) := by
  obtain ⟨declared, stack, root⟩ := b
  cases stack with
  | nil =>
    cases root with
    | none => rfl
    | some r => rfl
  | cons parent outer => rfl

theorem addContent_declaring (b : Builder) (encoding : Option String)
    (f : List Content → List Content) :
    (b.declaring encoding).addContent f = (b.addContent f).map (·.declaring encoding) := by
  obtain ⟨declared, stack, root⟩ := b
  cases stack with
  | nil => rfl
  | cons parent outer => rfl

theorem take_declaring (add : String → List Content → List Content) (b : Builder)
    (encoding : Option String) (p : Part) :
    (b.declaring encoding).take add p = (b.take add p).map (·.declaring encoding) := by
  cases p with
  | opening name attributes => rfl
  | closing name =>
    obtain ⟨declared, stack, root⟩ := b
    cases stack with
    | nil => rfl
    | cons e outer =>
      have hattach := attach_declaring { declared, stack := outer, root } encoding e.toNode
      show (if e.name = name then
          (declaring { declared, stack := outer, root } encoding).attach e.toNode
        else .error (.mismatchedEnd e.name name)) = _
      rw [take, hattach]
      dsimp only
      split
      · rfl
      · rfl
  | text s => exact addContent_declaring b encoding _
  | cdata s => exact addContent_declaring b encoding _

theorem takeAll_declaring (add : String → List Content → List Content) (encoding : Option String)
    (ps : List Part) : ∀ b : Builder,
      (b.declaring encoding).takeAll add ps = (b.takeAll add ps).map (·.declaring encoding) := by
  induction ps with
  | nil => exact fun _ => rfl
  | cons p rest ih =>
    intro b
    rw [takeAll_cons, takeAll_cons, take_declaring]
    cases b.take add p with
    | error e => rfl
    | ok b' => exact ih b'

theorem map_declaring_none (x : Except XmlError Builder) : x.map (·.declaring none) = x := by
  cases x with
  | error e => rfl
  | ok b => rfl

theorem takeAll_singleton (add : String → List Content → List Content) (b : Builder) (p : Part) :
    b.takeAll add [p] = b.take add p := by
  rw [takeAll_cons]
  exact bind_pure _

/-- **An event is taken in as the parts that it is read as.** -/
theorem step_eq (b : Builder) (event : Event) :
    b.step event = event.decode >>= fun ps =>
      (b.takeAll addCdata ps).map (·.declaring event.declares?) := by
  cases event with
  | declaration cs =>
    rw [step, Event.decode, Event.declares?]
    cases declaredEncoding cs with
    | error e => rfl
    | ok encoding =>
      cases encoding with
      | none => rfl
      | some encoding => rfl
  | start name cs =>
    rw [step, Event.decode]
    cases attributesOf cs with
    | error e => rfl
    | ok attributes => rfl
  | empty name cs =>
    rw [step, Event.decode]
    cases attributesOf cs with
    | error e => rfl
    | ok attributes =>
      -- An empty element is one that is closed as soon as it was opened.
      show b.attach _ = (takeAll addCdata b [.opening _ attributes, .closing _]).map _
      rw [takeAll_cons, take, ok_bind, takeAll_singleton, take]
      dsimp only
      rw [if_pos rfl]
      exact (map_declaring_none _).symm
  | close name =>
    show _ = (takeAll addCdata b [.closing (String.ofList name)]).map _
    rw [takeAll_singleton, step, take]
    exact (map_declaring_none _).symm
  | text raw =>
    rw [step, Event.decode]
    cases unescape? raw with
    | none => rfl
    | some cs =>
      dsimp only
      split
      · rfl
      · show _ = (takeAll addCdata b [.text (String.ofList cs)]).map _
        rw [takeAll_singleton, take]
        exact (map_declaring_none _).symm
  | cdata cs =>
    show _ = (takeAll addCdata b [.cdata (String.ofList cs)]).map _
    rw [takeAll_singleton, step, take]
    exact (map_declaring_none _).symm
  | comment => rfl
  | instruction => rfl
  | doctype => rfl
  | fault => rfl

theorem declaring_declaring (b : Builder) (earlier later : Option String) :
    (b.declaring earlier).declaring later = b.declaring (later.or earlier) := by
  rw [declaring, declaring, declaring, Option.or_assoc]

theorem run_cons (b : Builder) (event : Event) (rest : List Event) :
    b.run (event :: rest) = b.step event >>= fun b' => b'.run rest := by
  rw [run]
  cases b.step event with
  | error e => rfl
  | ok b' => rfl

end Builder

theorem lastDeclared?_cons (event : Event) (rest : List Event) :
    lastDeclared? (event :: rest) = (lastDeclared? rest).or event.declares? := by
  rw [lastDeclared?, lastDeclared?]
  cases hdeclares : event.declares? with
  | none => rw [List.filterMap_cons_none hdeclares, Option.or_none]
  | some encoding =>
    rw [List.filterMap_cons_some hdeclares, List.getLast?_cons]
    cases (rest.filterMap Event.declares?).getLast? with
    | none => rfl
    | some later => rfl

namespace Builder

/-- **Events are taken in as the parts that they are read as.** -/
theorem run_eq {es : List Event} : ∀ {ps : List Part}, decodeAll es = .ok ps → ∀ b : Builder,
    b.run es = (b.takeAll addCdata ps).map (·.declaring (lastDeclared? es)) := by
  induction es with
  | nil =>
    intro ps h b
    cases h
    exact (map_declaring_none (.ok b)).symm
  | cons event rest ih =>
    intro ps h b
    obtain ⟨qs, hevent, hrest⟩ := bind_eq_ok.mp h
    obtain ⟨rs, hrs, hps⟩ := bind_eq_ok.mp hrest
    cases hps
    rw [run_cons, step_eq, hevent, ok_bind, takeAll_append, lastDeclared?_cons]
    cases b.takeAll addCdata qs with
    | error e => rfl
    | ok b' =>
      show (b'.declaring _).run rest = (b'.takeAll addCdata rs).map _
      rw [ih hrs, takeAll_declaring]
      cases b'.takeAll addCdata rs with
      | error e => rfl
      | ok b'' => exact congrArg Except.ok (declaring_declaring b'' _ _)

/-- What events leave is what their parts make, with the CDATA in it merged. -/
theorem run_initial {es : List Event} {ps : List Part} (h : decodeAll es = .ok ps) :
    initial.run es
      = (initial.takeAll keepCdata ps).map fun b => b.merged.declaring (lastDeclared? es) := by
  have hmerged := takeAll_merged ps initial
  rw [run_eq h]
  show (initial.merged.takeAll addCdata ps).map _ = _
  rw [hmerged]
  cases initial.takeAll keepCdata ps with
  | error e => rfl
  | ok b => rfl

theorem run_append_error {es : List Event} {e : XmlError} (rest : List Event) :
    ∀ {b : Builder}, b.run es = .error e → b.run (es ++ rest) = .error e := by
  induction es with
  | nil =>
    intro b h
    cases h
  | cons event more ih =>
    intro b h
    rw [List.cons_append, run_cons]
    rw [run_cons] at h
    cases hstep : b.step event with
    | error e' =>
      rw [hstep] at h
      exact h
    | ok b' =>
      rw [hstep] at h
      exact ih h

end Builder

theorem decodeAll_concat (es : List Event) (event : Event) :
    decodeAll (es ++ [event])
      = decodeAll es >>= fun ps => event.decode >>= fun qs => .ok (ps ++ qs) := by
  induction es with
  | nil =>
    show (event.decode >>= fun ps => .ok (ps ++ [])) = event.decode >>= fun qs => .ok ([] ++ qs)
    simp only [List.append_nil, List.nil_append]
  | cons first more ih =>
    rw [List.cons_append, decodeAll, decodeAll, ih]
    cases first.decode with
    | error e => rfl
    | ok ps =>
      cases decodeAll more with
      | error e => rfl
      | ok qs =>
        cases event.decode with
        | error e => rfl
        | ok rs => exact congrArg Except.ok (List.append_assoc ps qs rs).symm

/-! ## End tags -/

theorem EndsMatch.append_left {es rest : List Event} : ∀ {names : List (List Char)},
    EndsMatch names (es ++ rest) → EndsMatch names es := by
  induction es with
  | nil => exact fun _ => trivial
  | cons event more ih => exact fun h => ⟨h.1, ih h.2⟩

/-- The events of a text match, as one that does not is replaced. -/
theorem endsMatch_matchEnds (es : List Event) : ∀ names, EndsMatch names (matchEnds names es) := by
  induction es with
  | nil =>
    intro names
    rw [matchEnds]
    trivial
  | cons event rest ih =>
    intro names
    cases event with
    | close name =>
      cases names with
      | nil => exact ⟨trivial, trivial⟩
      | cons innermost outer =>
        rw [matchEnds]
        split
        · next hname => exact ⟨congrArg some hname.symm, ih outer⟩
        · exact ⟨trivial, trivial⟩
    | start name attributes => exact ⟨trivial, ih (name :: names)⟩
    | _ => exact ⟨trivial, ih names⟩

theorem endsMatch_events (cs : List Char) : EndsMatch [] (events cs) :=
  endsMatch_matchEnds _ []

/-- Parts whose ends are all in place, with the elements that are open after them. -/
structure Nested (names : List (List Char)) (ps : List Part) : Prop where
  names : openNames ps = names.map String.ofList
  placed : ¬ Somewhere Misplaced ps

theorem Nested.concat {names : List (List Char)} {ps : List Part} (h : Nested names ps) {p : Part}
    {names' : List (List Char)} (hp : ¬ Misplaced ps p)
    (hnames : p.namesAfter (names.map String.ofList) = names'.map String.ofList) :
    Nested names' (ps ++ [p]) where
  names := by rw [openNames_concat, h.names, hnames]
  placed := by
    rw [somewhere_concat, not_or]
    exact ⟨h.placed, hp⟩

theorem Nested.closing {names : List (List Char)} {ps : List Part} (h : Nested names ps)
    {name : List Char} (hfits : names.head? = some name) :
    Nested names.tail (ps ++ [.closing (String.ofList name)]) := by
  refine h.concat ?_ List.map_tail.symm
  rintro ⟨hne⟩
  rw [h.names, List.head?_map, hfits] at hne
  exact hne rfl

/-- End tags that fit close what is open. -/
theorem Nested.decode {names : List (List Char)} {ps qs : List Part} (h : Nested names ps)
    {event : Event} (hfits : event.Fits names) (hdecode : event.decode = .ok qs) :
    Nested (event.namesAfter names) (ps ++ qs) := by
  have hnothing : Nested names (ps ++ []) := by
    rw [List.append_nil]
    exact h
  cases event with
  | declaration cs =>
    obtain ⟨encoding, -, rfl⟩ := map_eq_ok.mp hdecode
    exact hnothing
  | start name cs =>
    obtain ⟨attributes, -, rfl⟩ := map_eq_ok.mp hdecode
    exact h.concat nofun rfl
  | empty name cs =>
    obtain ⟨attributes, -, rfl⟩ := map_eq_ok.mp hdecode
    have hopened : Nested (name :: names) (ps ++ [.opening (String.ofList name) attributes]) :=
      h.concat nofun rfl
    rw [List.append_cons]
    exact hopened.closing rfl
  | close name =>
    cases hdecode
    exact h.closing hfits
  | text raw =>
    rw [Event.decode] at hdecode
    split at hdecode
    · cases hdecode
    · cases hdecode
      split
      · exact hnothing
      · exact h.concat nofun rfl
  | cdata cs =>
    cases hdecode
    exact h.concat nofun rfl
  | comment => cases hdecode; exact hnothing
  | instruction => cases hdecode; exact hnothing
  | doctype => cases hdecode; exact hnothing
  | fault => cases hdecode

theorem Nested.not_misplaced {es : List Event} : ∀ {names : List (List Char)} {ps qs : List Part},
    Nested names ps → EndsMatch names es → decodeAll es = .ok qs →
      ¬ Somewhere Misplaced (ps ++ qs) := by
  induction es with
  | nil =>
    intro names ps qs h _ hdecode
    cases hdecode
    rw [List.append_nil]
    exact h.placed
  | cons event rest ih =>
    intro names ps qs h hmatch hdecode
    obtain ⟨first, hfirst, hmore⟩ := bind_eq_ok.mp hdecode
    obtain ⟨later, hlater, hqs⟩ := bind_eq_ok.mp hmore
    cases hqs
    rw [← List.append_assoc]
    exact ih (h.decode hmatch.1 hfirst) hmatch.2 hlater

/-- If the end tags fit, no end is out of place. -/
theorem EndsMatch.not_misplaced {es : List Event} {ps : List Part} (h : EndsMatch [] es)
    (hdecode : decodeAll es = .ok ps) : ¬ Somewhere Misplaced ps :=
  Nested.not_misplaced ⟨rfl, not_somewhere_nil⟩ h hdecode

/-! ## What events come to -/

/-- Events that can all be read, as parts of which none is out of place. -/
structure Faultless (es : List Event) (ps : List Part) : Prop where
  decode : decodeAll es = .ok ps
  placed : ¬ Somewhere Stray ps

/-- What becomes of events: the element whose parts they are, or what is wrong first. -/
inductive Outcome (es : List Event) : Except XmlError Document → Prop where
  /-- The parts are those of one element. -/
  | document {n : Node} (h : decodeAll es = .ok n.parts) :
      Outcome es (.ok { declared := lastDeclared? es, root := n.merged })
  /-- There are no parts. -/
  | missing (h : decodeAll es = .ok []) : Outcome es (.error .missingRoot)
  /-- Nothing is wrong up to the end, but then an element is open. -/
  | unfinished {ps : List Part} {name : String} {outer : List String} (h : Faultless es ps)
      (hopen : openNames ps = name :: outer) : Outcome es (.error (.mismatchedEnd name ""))
  /-- What is wrong first is a part out of place. -/
  | outside {before after : List Event} {event : Event} {ps qs : List Part}
      (hsplit : es = before ++ event :: after) (h : Faultless before ps)
      (hdecode : event.decode = .ok qs) (hstray : Somewhere Stray (ps ++ qs)) :
      Outcome es (.error .multipleRoots)
  /-- What is wrong first is an event that cannot be read. -/
  | unreadable {before after : List Event} {event : Event} {ps : List Part} {e : XmlError}
      (hsplit : es = before ++ event :: after) (h : Faultless before ps)
      (hdecode : event.decode = .error e) : Outcome es (.error e)

section Outcomes

variable {es : List Event} {ps : List Part}

/-- Something is wrong first, or nothing is. -/
theorem faultless_or (es : List Event) : (∃ ps, Faultless es ps) ∨
    ∃ before event after ps, es = before ++ event :: after ∧ Faultless before ps ∧
      ((∃ e, event.decode = .error e) ∨
        ∃ qs, event.decode = .ok qs ∧ Somewhere Stray (ps ++ qs)) := by
  induction es using List.reverseRecOn with
  | nil => exact Or.inl ⟨[], rfl, not_somewhere_nil⟩
  | append_singleton es event ih =>
    rcases ih with ⟨ps, h⟩ | ⟨before, first, after, ps, rfl, h, hfault⟩
    · cases hevent : event.decode with
      | error e => exact Or.inr ⟨es, event, [], ps, rfl, h, Or.inl ⟨e, hevent⟩⟩
      | ok qs =>
        by_cases hstray : Somewhere Stray (ps ++ qs)
        · exact Or.inr ⟨es, event, [], ps, rfl, h, Or.inr ⟨qs, hevent, hstray⟩⟩
        · refine Or.inl ⟨ps ++ qs, ?_, hstray⟩
          rw [decodeAll_concat, h.decode, ok_bind, hevent, ok_bind]
    · exact Or.inr ⟨before, first, after ++ [event], ps,
        by rw [List.append_assoc, List.cons_append], h, hfault⟩

/-- Parts that are taken in make what the reader ends with. -/
theorem ofEvents_of_takeAll (h : decodeAll es = .ok ps) {b : Builder}
    (hb : Builder.initial.takeAll keepCdata ps = .ok b) :
    Document.ofEvents es = (b.merged.declaring (lastDeclared? es)).finish := by
  rw [Document.ofEvents, Builder.run_initial h, hb]
  rfl

theorem ofEvents_of_run_error {e : XmlError} (h : Builder.initial.run es = .error e) :
    Document.ofEvents es = .error e := by
  rw [Document.ofEvents, h]

/-- What is faultless is taken in. -/
theorem Faultless.exists_takeAll (h : Faultless es ps) (hmatch : EndsMatch [] es) :
    ∃ b : Builder, Builder.initial.takeAll keepCdata ps = .ok b ∧ b.Stands ps := by
  rcases Builder.takeAll_stands ps (hmatch.not_misplaced h.decode) with ⟨hstray, -⟩ | ⟨-, hb⟩
  · exact absurd hstray h.placed
  · exact hb

/-- A part out of place is where the reader stops. -/
theorem run_of_stray (h : decodeAll es = .ok ps) (hmatch : EndsMatch [] es)
    (hstray : Somewhere Stray ps) : Builder.initial.run es = .error .multipleRoots := by
  rcases Builder.takeAll_stands ps (hmatch.not_misplaced h) with ⟨-, herror⟩ | ⟨hplaced, -⟩
  · rw [Builder.run_initial h, herror]
    rfl
  · exact absurd hstray hplaced

/-- **Every outcome is what the reader gives.** -/
theorem Outcome.ofEvents_eq (hmatch : EndsMatch [] es) {r : Except XmlError Document}
    (h : Outcome es r) : Document.ofEvents es = r := by
  cases h with
  | @document n h =>
    rw [ofEvents_of_takeAll h (Builder.takeAll_parts n)]
    show Except.ok (Document.mk ((lastDeclared? es).or none) n.merged) = _
    rw [Option.or_none]
  | missing h => exact ofEvents_of_takeAll h rfl
  | @unfinished ps name outer h hopen =>
    obtain ⟨b, hb, hstands⟩ := h.exists_takeAll hmatch
    obtain ⟨e, more, hstack, rfl, -⟩ := List.map_eq_cons_iff.mp (hstands.names.trans hopen)
    rw [ofEvents_of_takeAll h.decode hb, Builder.finish, Builder.declaring, Builder.merged, hstack]
    rfl
  | @outside before after event ps qs hsplit h hdecode hstray =>
    -- The event is still read, and so the part out of place is among parts that are taken in.
    have hsplit' : es = (before ++ [event]) ++ after := by
      rw [hsplit, List.append_assoc]
      rfl
    have hdecode' : decodeAll (before ++ [event]) = .ok (ps ++ qs) := by
      rw [decodeAll_concat, h.decode, ok_bind, hdecode, ok_bind]
    rw [hsplit'] at hmatch ⊢
    exact ofEvents_of_run_error
      (Builder.run_append_error after (run_of_stray hdecode' hmatch.append_left hstray))
  | @unreadable before after event ps e hsplit h hdecode =>
    -- All before the event is taken in, and the next step fails.
    rw [hsplit] at hmatch ⊢
    obtain ⟨b, hb, -⟩ := h.exists_takeAll hmatch.append_left
    have hrun : Builder.initial.run before
        = .ok (b.merged.declaring (lastDeclared? before)) := by
      rw [Builder.run_initial h.decode, hb]
      rfl
    refine ofEvents_of_run_error ?_
    rw [Builder.run_append hrun, Builder.run_cons, Builder.step_eq, hdecode, error_bind,
      error_bind]

/-- What is left when everything is taken in is one element, or nothing, or more to come. -/
theorem Faultless.exists_outcome (h : Faultless es ps) (hmatch : EndsMatch [] es) :
    ∃ r, Outcome es r := by
  obtain ⟨b, hb, hstands⟩ := h.exists_takeAll hmatch
  cases hstack : b.stack with
  | cons e outer =>
    have hopen : openNames ps = e.name :: outer.map (·.name) := by
      rw [← hstands.names, hstack, List.map_cons]
    exact ⟨_, .unfinished h hopen⟩
  | nil =>
    have hparts : b.root.toList.flatMap Node.parts = ps := by
      have htaken := Builder.parts_takeAll hb
      rw [Builder.parts, hstack, List.reverse_nil, List.flatMap_nil, List.append_nil] at htaken
      exact htaken
    have hdecode := h.decode
    rw [← hparts] at hdecode
    cases hroot : b.root with
    | none =>
      rw [hroot] at hdecode
      exact ⟨_, .missing hdecode⟩
    | some n =>
      rw [hroot, Option.toList_some, List.flatMap_singleton] at hdecode
      exact ⟨_, .document hdecode⟩

theorem exists_outcome (hmatch : EndsMatch [] es) : ∃ r, Outcome es r := by
  rcases faultless_or es with ⟨ps, h⟩ | ⟨before, event, after, ps, hsplit, h, hfault⟩
  · exact h.exists_outcome hmatch
  · rcases hfault with ⟨e, hdecode⟩ | ⟨qs, hdecode, hstray⟩
    · exact ⟨_, .unreadable hsplit h hdecode⟩
    · exact ⟨_, .outside hsplit h hdecode hstray⟩

/-- **A document is read from events exactly if their parts are those of one element in
preorder**, and otherwise what is wrong first decides. -/
theorem Document.ofEvents_iff (hmatch : EndsMatch [] es) {r : Except XmlError Document} :
    Document.ofEvents es = r ↔ Outcome es r := by
  constructor
  · rintro rfl
    obtain ⟨r, hr⟩ := exists_outcome hmatch
    rw [hr.ofEvents_eq hmatch]
    exact hr
  · exact Outcome.ofEvents_eq hmatch

end Outcomes

/-- A parcel with entities in an attribute and in text, and with a comment between two
sections of CDATA. -/
def parcelText : List Char :=
  "<?xml encoding='latin1'?>
  <parcel to='A&amp;B'> <slip/>&#55;<![CDATA[a]]><!-- b --><![CDATA[c]]></parcel>".toList

/-- The parcel, with one section of CDATA. -/
def parcelNode : Node where
  name := "parcel"
  attributes := [("to", "A&B")]
  children := [.element "slip" [] [], .text "7", .cdata "ac"]

theorem Document.ofEvents_iff_parcel :
    EndsMatch [] (events parcelText) ∧
      Outcome (events parcelText) (.ok { declared := some "latin1", root := parcelNode }) := by
  have hmatch := endsMatch_events parcelText
  exact ⟨hmatch, (Document.ofEvents_iff hmatch).mp (by decide +kernel)⟩

end EventWire.Xml

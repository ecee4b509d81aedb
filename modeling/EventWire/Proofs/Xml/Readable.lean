import EventWire.Proofs.Xml.AsRead
import EventWire.Proofs.Xml.Built
import EventWire.Proofs.Xml.Tags

/-!
# Documents that are read as something else

Names of elements are checked when a tree is written, those of attributes are not. A name with
a blank, an equals sign, a quote or a bracket in it may end too early or take in what follows.
A written tag is read as it was exactly if its attributes are readable: a tag that ends too
early has fewer attributes (`eq_of_attributesOf`), and one that goes on has more. So a written
document is read with the tags of its tree exactly if all attributes in it are readable
(`readable_of_readTags`).
-/

namespace EventWire.Xml

/-! ## What is left open -/

theorem cutTag_eq_some {cs : List Char} : ∀ {quote : Option Char} {before rest : List Char},
    cutTag quote cs = some (before, rest) → cs = before ++ '>' :: rest := by
  induction cs with
  | nil =>
    intro quote before rest h
    cases h
  | cons c more ih =>
    intro quote before rest h
    cases quote with
    | none =>
      rw [cutTag_none_cons] at h
      split at h
      · next hgt =>
        cases h
        rw [beq_iff_eq.mp hgt, List.nil_append]
      · obtain ⟨⟨before', rest'⟩, hmore, heq⟩ := Option.map_eq_some_iff.mp h
        cases heq
        rw [ih hmore, List.cons_append]
    | some q =>
      rw [cutTag_some_cons] at h
      obtain ⟨⟨before', rest'⟩, hmore, heq⟩ := Option.map_eq_some_iff.mp h
      cases heq
      rw [ih hmore, List.cons_append]

/-- **A tag that ends behind its attributes leaves no quote open in them**, whether it is one of
an empty element or not. -/
theorem closedQuotes_of_cutTag {name : String} {attributes : List (String × String)}
    {after inside rest : List Char}
    (h : cutTag none (attributes.flatMap attributeText ++ after) = some (inside, rest))
    (hinside : inside = attributes.flatMap attributeText ∨
      inside = attributes.flatMap attributeText ++ ['/']) :
    closedQuotes name attributes = true := by
  obtain ⟨before, rfl, hbefore⟩ : ∃ before,
      inside = attributes.flatMap attributeText ++ before ∧ (before = [] ∨ before = ['/']) := by
    rcases hinside with rfl | rfl
    · exact ⟨[], (List.append_nil _).symm, Or.inl rfl⟩
    · exact ⟨['/'], rfl, Or.inr rfl⟩
  obtain ⟨quote, hquote, hafter, hgoes⟩ := exists_quote_of_cutTag openQuote_none h
  cases quote with
  | none =>
    rw [closedQuotes, decide_eq_true_eq, hgoes]
    show some (attributes.flatMap attributeText ++ [], []) = _
    rw [List.append_nil]
  | some q =>
    rcases hbefore with rfl | rfl
    · exact absurd rfl (cutTag_some_ne hafter)
    · -- The slash closes no quote, so one is open where the tag should end.
      cases after with
      | nil => cases hafter
      | cons c more =>
        rw [cutTag_some_cons] at hafter
        obtain ⟨⟨before, rest'⟩, hmore, heq⟩ := Option.map_eq_some_iff.mp hafter
        cases heq
        have hne : '/' ≠ q := by
          rcases hquote q rfl with rfl | rfl <;> decide
        rw [if_neg hne] at hmore
        exact absurd rfl (cutTag_some_ne hmore)

/-! ## Attributes of another tag -/

theorem spec_of_readAttributes {broken : Bool} {raw : List (List Char × List Char)} :
    ∀ {before attributes : List (String × String)},
      Builder.readAttributes broken before raw = .ok attributes →
        broken = false ∧ attributes.length = before.length + raw.length := by
  induction raw with
  | nil =>
    intro before attributes h
    rw [Builder.readAttributes] at h
    split at h
    · cases h
    · next hbroken =>
      cases h
      exact ⟨Bool.eq_false_iff.mpr hbroken, rfl⟩
  | cons item rest ih =>
    intro before attributes h
    rw [Builder.readAttributes] at h
    split at h
    · cases h
    · split at h
      · cases h
      · obtain ⟨hbroken, hlength⟩ := ih h
        refine ⟨hbroken, ?_⟩
        rw [hlength, List.length_append, List.length_singleton, List.length_cons]
        omega

/-- Attributes that are read were read to the end, and there are as many as were written. -/
theorem spec_of_attributesOf {cs : List Char} {attributes : List (String × String)}
    (h : Builder.attributesOf cs = .ok attributes) :
    (rawAttributes cs).broken = false ∧ (rawAttributes cs).items.length = attributes.length := by
  obtain ⟨hbroken, hlength⟩ := spec_of_readAttributes h
  rw [List.length_nil, Nat.zero_add] at hlength
  exact ⟨hbroken, hlength.symm⟩

/-- Between no attributes there is nothing but blanks. -/
theorem blank_of_no_items {cs : List Char} (hbroken : (rawAttributes cs).broken = false)
    (hlength : (rawAttributes cs).items.length = 0) : cs.dropWhile Text.isPlainBlank = [] := by
  refine blank_of_rawAttributes ?_
  rw [← hbroken, ← List.length_eq_zero_iff.mp hlength]

/-- **Only the text of the attributes is read as these attributes**: one that breaks off before
its end has fewer, and one that goes on behind it has more. -/
theorem eq_of_attributesOf {attributes : List (String × String)} {inside more after : List Char}
    (hnames : ∀ a ∈ attributes, isReadName a.1.toList = true)
    (htext : inside ++ more = attributes.flatMap attributeText ++ after)
    (hafter : ∀ c ∈ after.head?, Text.isPlainBlank c = false)
    (hread : Builder.attributesOf inside = .ok attributes) :
    inside = attributes.flatMap attributeText := by
  obtain ⟨hbroken, hlength⟩ := spec_of_attributesOf hread
  have hall := rawAttributes_attributes hnames
  rcases List.append_eq_append_iff.mp htext with ⟨back, hback, -⟩ | ⟨tail, rfl, htail⟩
  · -- What is missing has no attribute, but it ends with a quote if there is any.
    rw [hback, rawAttributes_append hbroken] at hall
    obtain ⟨hitems, hclosed⟩ := RawAttributes.mk.inj hall
    have hnone : (rawAttributes back).items.length = 0 := by
      have hsum := congrArg List.length hitems
      rw [List.length_append, hlength, rawItems, List.length_map] at hsum
      omega
    have hblank := blank_of_no_items hclosed hnone
    cases hcases : back with
    | nil => rw [hback, hcases, List.append_nil]
    | cons c more =>
      exfalso
      have hne : attributes ≠ [] := by
        rintro rfl
        rw [hcases] at hback
        exact List.append_ne_nil_of_right_ne_nil _ (List.cons_ne_nil _ _) hback.symm
      have hlast := getLast?_attributes hne
      rw [hback, hcases, List.getLast?_append_of_ne_nil _ (List.cons_ne_nil _ _), ← hcases] at hlast
      have hquote := List.dropWhile_eq_nil_iff.mp hblank '"' (List.mem_of_getLast? hlast)
      exact absurd hquote (by decide)
  · -- What is too much has no attribute either, but it begins with no blank.
    rw [rawAttributes_append (by rw [hall])] at hbroken hlength
    have hnone : (rawAttributes tail).items.length = 0 := by
      rw [List.length_append, hall, rawItems, List.length_map] at hlength
      omega
    have hblank := blank_of_no_items hbroken hnone
    cases tail with
    | nil => rw [List.append_nil]
    | cons c tail =>
      rw [htail] at hafter
      rw [List.dropWhile_cons, hafter c rfl, if_neg Bool.false_ne_true] at hblank
      cases hblank

/-! ## Written tags -/

/-- A name and what stands behind a blank make a tag of that name, with or without a slash at
its end. -/
theorem readTag?_openingEvent {name : String} (h : isValidName name = true) (more : List Char) :
    ∃ inside, (' ' :: more = inside ∨ ' ' :: more = inside ++ ['/']) ∧
      (openingEvent (name.toList ++ ' ' :: more)).readTag?
        = some (name, Builder.attributesOf inside) := by
  have hlast : (name.toList ++ ' ' :: more).getLast? = (' ' :: more).getLast? :=
    List.getLast?_append_of_ne_nil _ (List.cons_ne_nil _ _)
  have hsplit : ∀ cs, splitTag (name.toList ++ ' ' :: cs) = (name.toList, ' ' :: cs) := fun cs =>
    splitTag_append h fun c hc => by
      cases hc
      decide
  rcases List.eq_nil_or_concat more with rfl | ⟨front, c, rfl⟩
  · refine ⟨[' '], Or.inl rfl, ?_⟩
    rw [openingEvent, if_neg (by rw [hlast]; decide), hsplit, Event.readTag?,
      String.ofList_toList]
  · rw [List.concat_eq_append] at hlast ⊢
    by_cases hslash : c = '/'
    · refine ⟨' ' :: front, Or.inr (by rw [hslash]; rfl), ?_⟩
      have hdrop : (name.toList ++ ' ' :: (front ++ [c])).dropLast
          = name.toList ++ ' ' :: front := by
        rw [← List.cons_append, ← List.append_assoc, List.dropLast_concat]
      have hlastSlash : (name.toList ++ ' ' :: (front ++ [c])).getLast? = some '/' := by
        rw [hlast, ← List.cons_append, List.getLast?_concat, hslash]
      rw [openingEvent, if_pos hlastSlash, hdrop, hsplit, Event.readTag?,
        String.ofList_toList]
    · refine ⟨' ' :: (front ++ [c]), Or.inl rfl, ?_⟩
      have hlastOther : (name.toList ++ ' ' :: (front ++ [c])).getLast? ≠ some '/' := by
        rw [hlast, ← List.cons_append, List.getLast?_concat]
        exact fun e => hslash (Option.some.inj e)
      rw [openingEvent, if_neg hlastOther, hsplit, Event.readTag?, String.ofList_toList]

theorem lex_fault {c : Char} {rest after : List Char} (h : Event.next c rest = (.fault, after)) :
    lex (c :: rest) = [.fault] := by
  rw [lex, List.length_cons, eventsWithin, h]
  rfl

/-- **A written tag that is read as it was has closed its quotes**: it ended where it was to
end. -/
theorem closedQuotes_of_readTags {name : String} {attributes : List (String × String)}
    {after : List Char} {tags : List (String × Except XmlError (List (String × String)))}
    (hname : isValidName name = true) (hnames : ∀ a ∈ attributes, isReadName a.1.toList = true)
    (hafter : ∀ c ∈ after.head?, Text.isPlainBlank c = false)
    (h : readTags (lex ('<' :: (tagText name attributes ++ after)))
      = asRead (name, attributes) :: tags) : closedQuotes name attributes = true := by
  rcases attributes_cases attributes with hnil | ⟨text, htext⟩
  · rw [closedQuotes, hnil]
    rfl
  · have hnext := next_tagText hname attributes after
    cases hcut : cutTag none (attributes.flatMap attributeText ++ after) with
    | none =>
      rw [hcut] at hnext
      rw [lex_fault hnext] at h
      cases h
    | some p =>
      obtain ⟨inside, rest⟩ := p
      rw [hcut] at hnext
      -- The tag goes on behind its name with a blank, wherever it ends.
      have hall := cutTag_eq_some hcut
      obtain ⟨behind, rfl⟩ : ∃ behind, inside = ' ' :: behind := by
        rw [htext] at hall
        cases inside with
        | nil => exact absurd (List.cons.inj hall).1 (by decide)
        | cons c behind => exact ⟨behind, by rw [← (List.cons.inj hall).1]⟩
      obtain ⟨read, hread, htag⟩ := readTag?_openingEvent hname behind
      have hnotFault : openingEvent (name.toList ++ ' ' :: behind) ≠ .fault := by
        intro hfault
        rw [hfault] at htag
        cases htag
      rw [lex_cons hnext hnotFault, readTags_cons, htag] at h
      have hattributes : Builder.attributesOf read = .ok attributes :=
        (Prod.mk.inj (List.cons.inj h).1).2
      obtain ⟨left, hleft⟩ : ∃ left, read ++ left = attributes.flatMap attributeText ++ after := by
        rcases hread with hread | hread
        · exact ⟨_, by rw [← hread]; exact hall.symm⟩
        · exact ⟨'/' :: '>' :: rest, by rw [hall, hread, List.append_assoc]; rfl⟩
      have hsame := eq_of_attributesOf hnames hleft hafter hattributes
      rw [hsame] at hread
      exact closedQuotes_of_cutTag hcut hread

/-! ## Written trees -/

theorem readable_of_closed {cs : List Content} (hnames : Content.everyIn readNames cs = true)
    (hquotes : Content.everyIn closedQuotes cs = true) :
    Content.everyIn readableAttributes cs = true :=
  everyIn_and cs hnames hquotes

/-- An element that is read with its own tags has closed its quotes, and so have its children
if they have when they are read with theirs. What follows is read as if it stood alone. -/
theorem closedQuotes_of_elementText {name : String} {attributes : List (String × String)}
    {children : List Content} {inner rest : List Char}
    {tags : List (String × Except XmlError (List (String × String)))}
    (hname : isValidName name = true) (hinner : childrenText children = .ok inner)
    (hnames : (Content.element name attributes children).every readNames = true)
    (hdistinct : (Content.element name attributes children).every distinctAttributes = true)
    (hchildren : ∀ rest tags, readTags (lex (inner ++ '<' :: rest))
      = (Content.tagsIn children).map asRead ++ tags → Content.everyIn closedQuotes children = true)
    (h : readTags (lex (elementText name attributes children inner ++ rest))
      = asRead (name, attributes) :: ((Content.tagsIn children).map asRead ++ tags)) :
    (Content.element name attributes children).every closedQuotes = true ∧
      readTags (lex rest) = tags := by
  obtain ⟨hattributes, hnamesIn⟩ := every_element.mp hnames
  obtain ⟨hnodup, hdistinctIn⟩ := every_element.mp hdistinct
  have hreadNames : ∀ a ∈ attributes, isReadName a.1.toList = true :=
    List.all_eq_true.mp hattributes
  have hread := attributesOf_attributes hreadNames (of_decide_eq_true hnodup)
  -- Either way, the name and its attributes come first, and no blank follows them.
  obtain ⟨after, hafter, htext⟩ : ∃ after : List Char,
      (∀ c ∈ after.head?, Text.isPlainBlank c = false) ∧
        elementText name attributes children inner ++ rest
          = '<' :: (tagText name attributes ++ after) := by
    unfold elementText
    split
    · refine ⟨'/' :: '>' :: rest, fun c hc => ?_, by simp⟩
      cases hc
      decide
    · refine ⟨'>' :: (inner ++ '<' :: '/' :: name.toList ++ '>' :: rest), fun c hc => ?_, by simp⟩
      cases hc
      decide
  have hclosed : closedQuotes name attributes = true :=
    closedQuotes_of_readTags hname hreadNames hafter (by rw [← htext, h])
  have henclosed : Enclosed (attributes.flatMap attributeText) :=
    enclosed_of_cutTag (of_decide_eq_true hclosed)
  have hclosedIn : Content.everyIn closedQuotes children = true := by
    cases children with
    | nil => rfl
    | cons c cs =>
      have hstart :=
        lex_startTag hname henclosed (inner ++ '<' :: '/' :: name.toList ++ '>' :: rest)
      have hcut : elementText name attributes (c :: cs) inner ++ rest
          = '<' :: tagText name attributes
            ++ '>' :: (inner ++ '<' :: '/' :: name.toList ++ '>' :: rest) := by
        simp [elementText]
      rw [hcut, hstart, readTags_cons, Event.readTag?, hread, String.ofList_toList] at h
      refine hchildren ('/' :: name.toList ++ '>' :: rest) tags ?_
      have htail := (List.cons.inj h).2
      simp only [List.append_assoc, List.cons_append] at htail ⊢
      exact htail
  refine ⟨every_element.mpr ⟨hclosed, hclosedIn⟩, ?_⟩
  -- Now the element is known to be cut into its own events.
  have hcut : ∀ rest, lex (inner ++ '<' :: rest) = childEvents [] children ++ lex ('<' :: rest) :=
    lex_childrenText children (readable_of_closed hnamesIn hclosedIn) hinner []
  rw [lex_elementText hname henclosed hcut, readTags_append, readTags_elementEvents hread
    (readTags_childEvents children hnamesIn hdistinctIn [])] at h
  exact List.append_cancel_left (List.cons.inj h).2

/-- Text in front of a piece that begins with a bracket has no tags. -/
theorem readTags_behind {piece : List Char} (hopen : ∃ inside, piece = '<' :: inside)
    (pending later rest : List Char) :
    readTags (lex (escape pending ++ (piece ++ later) ++ '<' :: rest))
      = readTags (lex (piece ++ (later ++ '<' :: rest))) := by
  obtain ⟨inside, rfl⟩ := hopen
  have hpending := lex_escape pending (inside ++ (later ++ '<' :: rest))
  simp only [List.append_assoc, List.cons_append] at hpending ⊢
  rw [hpending, readTags_append, readTags_textEvents, List.nil_append]

/-- **Children that are read with their own tags have closed all quotes.** -/
theorem closedQuotes_of_childrenText (cs : List Content) :
    Content.everyIn readNames cs = true → Content.everyIn distinctAttributes cs = true →
    ∀ {text : List Char}, childrenText cs = .ok text → ∀ pending rest tags,
      readTags (lex (escape pending ++ text ++ '<' :: rest))
        = (Content.tagsIn cs).map asRead ++ tags → Content.everyIn closedQuotes cs = true := by
  induction cs using childrenInduction with
  | nil => exact fun _ _ _ _ _ _ _ _ => rfl
  | text s cs ih =>
    intro hnames hdistinct text htext pending rest tags h
    obtain ⟨first, later, hfirst, hlater, rfl⟩ := childrenText_cons_eq_ok htext
    rw [contentText] at hfirst
    cases hfirst
    rw [Content.tagsIn, Content.tags, ← List.append_assoc, ← escape_append] at h
    exact everyIn_cons.mpr ⟨rfl, ih (everyIn_cons.mp hnames).2 (everyIn_cons.mp hdistinct).2 hlater
      _ rest tags h⟩
  | cdata s cs ih =>
    intro hnames hdistinct text htext pending rest tags h
    obtain ⟨first, later, hfirst, hlater, rfl⟩ := childrenText_cons_eq_ok htext
    rw [contentText] at hfirst
    cases hfirst
    have hopen : ∃ inside, cdataText s.toList = '<' :: inside := ⟨_, rfl⟩
    rw [readTags_behind hopen, lex_cdataText, readTags_append, cdataEvents, readTags_cdata,
      Content.tagsIn, Content.tags] at h
    exact everyIn_cons.mpr ⟨rfl, ih (everyIn_cons.mp hnames).2 (everyIn_cons.mp hdistinct).2 hlater
      [] rest tags h⟩
  | element name attributes children cs ihchildren ih =>
    intro hnames hdistinct text htext pending rest tags h
    obtain ⟨first, later, hfirst, hlater, rfl⟩ := childrenText_cons_eq_ok htext
    obtain ⟨hname, inner, hinner, rfl⟩ := contentText_element_eq_ok hfirst
    obtain ⟨helement, hcs⟩ := everyIn_cons.mp hnames
    obtain ⟨helement', hcs'⟩ := everyIn_cons.mp hdistinct
    rw [readTags_behind (exists_elementText name attributes children inner), Content.tagsIn,
      Content.tags, List.cons_append, List.map_cons, List.map_append, List.cons_append,
      List.append_assoc] at h
    obtain ⟨hclosed, hrest⟩ := closedQuotes_of_elementText hname hinner helement helement'
      (ihchildren (every_element.mp helement).2 (every_element.mp helement').2 hinner []) h
    exact everyIn_cons.mpr ⟨hclosed, ih hcs hcs' hlater [] rest tags hrest⟩

section Document

variable {n : Node}

theorem everyIn_iff_tags {p : TagTest} (cs : List Content) :
    Content.everyIn p cs = true ↔ ∀ t ∈ Content.tagsIn cs, p t.1 t.2 = true := by
  induction cs using childrenInduction with
  | nil =>
    rw [Content.tagsIn]
    exact iff_of_true rfl fun _ h => absurd h List.not_mem_nil
  | text s cs ih =>
    rw [everyIn_cons, ih, Content.tagsIn, Content.tags, List.nil_append]
    exact and_iff_right rfl
  | cdata s cs ih =>
    rw [everyIn_cons, ih, Content.tagsIn, Content.tags, List.nil_append]
    exact and_iff_right rfl
  | element name attributes children cs ihchildren ih =>
    rw [everyIn_cons, every_element, ihchildren, ih, Content.tagsIn, Content.tags,
      List.forall_mem_append, List.forall_mem_cons]

theorem Node.every_iff_tags {p : TagTest} :
    n.every p = true ↔ ∀ t ∈ n.tags, p t.1 t.2 = true := by
  rw [every, toContent, every_element, everyIn_iff_tags, tags, toContent, Content.tags,
    List.forall_mem_cons]

theorem tagsIn_frontCdata (s : String) (cs : List Content) :
    Content.tagsIn (frontCdata s cs) = Content.tagsIn cs := by
  match cs with
  | [] => simp only [frontCdata, Content.tagsIn, Content.tags, List.nil_append]
  | .cdata t :: rest => simp only [frontCdata, Content.tagsIn, Content.tags]
  | .text _ :: _ => simp only [frontCdata, Content.tagsIn, Content.tags, List.nil_append]
  | .element .. :: _ => simp only [frontCdata, Content.tagsIn, Content.tags, List.nil_append]

theorem tagsIn_withoutTexts (cs : List Content) :
    Content.tagsIn (Content.withoutTexts cs) = Content.tagsIn cs := by
  induction cs using childrenInduction with
  | nil => rw [Content.withoutTexts]
  | text s cs ih => rw [Content.withoutTexts, ih, Content.tagsIn, Content.tags, List.nil_append]
  | cdata s cs ih =>
    rw [Content.withoutTexts, tagsIn_frontCdata, ih, Content.tagsIn, Content.tags, List.nil_append]
  | element name attributes children cs ihchildren ih =>
    rw [Content.withoutTexts, Content.tagsIn, Content.tagsIn, Content.tags, Content.tags,
      ihchildren, ih]

/-- A tree and its normal form differ in their texts, not in their tags. -/
theorem tags_norm (n : Node) : n.norm.tags = n.tags := by
  have htags : ∀ m : Node, m.withoutTexts.tags = m.tags := by
    intro m
    rw [Node.tags, Node.tags, Node.toContent, Node.toContent, Content.tags, Content.tags,
      Node.withoutTexts, tagsIn_withoutTexts]
  rw [← htags, withoutTexts_norm, htags]

/-- **A tree whose text is read with its own tags is readable.** -/
theorem readable_of_readTags {text : List Char} (htext : contentText n.toContent = .ok text)
    (hnames : n.every readNames = true) (hdistinct : n.every distinctAttributes = true)
    (h : readTags (lex text) = n.tags.map asRead) : n.every readableAttributes = true := by
  obtain ⟨hname, inner, hinner, rfl⟩ := contentText_element_eq_ok htext
  have hnil : readTags (lex (elementText n.name n.attributes n.children inner ++ []))
      = (Content.tags n.toContent).map asRead ++ [] := by
    rw [List.append_nil, List.append_nil]
    exact h
  have hclosed := closedQuotes_of_elementText hname hinner hnames hdistinct
    (closedQuotes_of_childrenText n.children (every_element.mp hnames).2
      (every_element.mp hdistinct).2 hinner []) hnil
  exact Node.every_and hnames hclosed.1

/-- **A written document has the tags of its tree exactly if the tree is readable.** -/
theorem exists_document_iff {encoding : Option String} {s : String}
    (hencoding : ∀ e ∈ encoding, ¬declarationEnd <:+: e.toList)
    (hdistinct : n.every distinctAttributes = true) (h : writeDocument n encoding = .ok s) :
    (∃ d, Document.parse s = .ok d ∧ d.root.tags = n.tags) ↔ n.every readableAttributes = true := by
  constructor
  · rintro ⟨d, hd, htags⟩
    have hnode : Node.parse s = .ok d.root := by
      rw [Node.parse, hd]
      rfl
    have hnames : n.every readNames = true := by
      rw [Node.every_iff_tags, ← htags, ← Node.every_iff_tags]
      exact Node.every_of_parse readNames_attributesOf hnode
    unfold writeDocument at h
    split at h
    · next text htext =>
      cases h
      rw [Document.parse, String.toList_ofList, events_written hencoding htext, Document.ofEvents,
        Builder.run_declaration] at hd
      split at hd
      · cases hd
      · next b hrun =>
        exact readable_of_readTags htext hnames hdistinct
          ((readTags_of_finish hrun hd).trans (by rw [htags]))
    · cases h
  · intro hreadable
    exact ⟨_, parse_writeDocument_of_encoding hencoding hreadable hdistinct h, tags_norm n⟩

end Document

/-- **A tree that was read and comes back from its text leaves no quote open.** -/
theorem Node.AsRead.closedQuotes_of_parse_write {n : Node} (h : n.AsRead) {s : String}
    (hwrite : n.write = .ok s) (hparse : Node.parse s = .ok n) :
    n.every closedQuotes = true := by
  obtain ⟨d, hd, hroot⟩ := map_eq_ok.mp hparse
  have hreadable := (exists_document_iff (fun _ he => absurd he (Option.not_mem_none _))
    h.distinct hwrite).mp ⟨d, hd, congrArg Node.tags hroot⟩
  exact Node.every_mono (fun _ _ ht => ((Bool.and_eq_true _ _).mp ht).2) hreadable

/-! ## Trees of all kinds -/

/-- An element that was made in any way: from a name, by reading, by taking one out of another,
and by setting attributes and adding children. -/
inductive Node.Made : Node → Prop
  | named (name : String) : Made (.named name)
  | parse {s : String} {n : Node} (h : Node.parse s = .ok n) : Made n
  | element {n m : Node} (h : Made n) (hm : m ∈ n.elements) : Made m
  | setAttribute {n : Node} (h : Made n) (name value : String) : Made (n.setAttribute name value)
  | withText {n : Node} (h : Made n) (s : String) : Made (n.withText s)
  | withCdata {n : Node} (h : Made n) (s : String) : Made (n.withCdata s)
  | withChild {n child : Node} (h : Made n) (hchild : Made child) : Made (n.withChild child)

theorem distinct_of_made {n : Node} (h : n.Made) : n.every distinctAttributes = true := by
  induction h with
  | named name => exact Node.every_named rfl
  | parse h => exact Node.distinct_of_parse h
  | element _ hm ih => exact Node.every_of_mem_elements ih hm
  | setAttribute _ name value ih => exact Node.distinct_setAttribute ih name value
  | withText _ s ih => exact Node.every_push.mpr ⟨ih, rfl⟩
  | withCdata _ s ih => exact Node.every_push.mpr ⟨ih, rfl⟩
  | withChild _ _ ih ihchild => exact Node.every_push.mpr ⟨ih, ihchild⟩

namespace Node

variable {n : Node} {encoding : Option String}

/-- **A document is read with the tags that were written exactly if all attributes in it are
readable**, as they are under valid names. Only texts may then differ, as in the normal form.
Nothing but the name of an element keeps a tree from being written. -/
theorem parse_written_iff (hmade : n.Made)
    (hencoding : ∀ e ∈ encoding, ¬declarationEnd <:+: e.toList) :
    (∀ e, writeDocument n encoding = .error e →
      ∃ name ∈ n.names, isValidName name = false ∧ e = .invalidName name) ∧
    (∀ s, writeDocument n encoding = .ok s →
      ((∃ d, Document.parse s = .ok d ∧ d.root.tags = n.tags)
        ↔ n.every readableAttributes = true) ∧
      (n.every readableAttributes = true →
        Document.parse s = .ok { declared := encoding.map declaredText, root := n.norm } ∧
          n.norm.withoutTexts = n.withoutTexts)) ∧
    (n.every validAttributes = true → n.every readableAttributes = true) := by
  have hdistinct := distinct_of_made hmade
  refine ⟨fun e h => writeDocument_eq_error h, fun s h => ⟨?_, fun hreadable => ⟨?_, ?_⟩⟩,
    every_mono fun _ _ => readableAttributes_of_valid⟩
  · exact exists_document_iff hencoding hdistinct h
  · exact parse_writeDocument_of_encoding hencoding hreadable hdistinct h
  · exact withoutTexts_norm n

/-- An element whose attribute is called as if it were an attribute and the name of another. -/
def twofold : Node :=
  (named "a").setAttribute "b=\"1\" c" "v"

/-- Inside another element and behind a declaration, it is written, and is not read with its
tags. -/
theorem parse_written_iff_twofold :
    ((named "r").withChild twofold).Made ∧
      (∀ e ∈ some "UTF-8", ¬declarationEnd <:+: e.toList) ∧
      ∃ s, writeDocument ((named "r").withChild twofold) (some "UTF-8") = .ok s ∧
        ¬∃ d, Document.parse s = .ok d ∧ d.root.tags = ((named "r").withChild twofold).tags := by
  have hmade : ((named "r").withChild twofold).Made :=
    .withChild (.named "r") (.setAttribute (.named "a") _ _)
  have hencoding : ∀ e ∈ some "UTF-8", ¬declarationEnd <:+: e.toList := by decide +kernel
  have hok : (writeDocument ((named "r").withChild twofold) (some "UTF-8")).isOk = true := by
    decide +kernel
  have hunreadable : ¬((named "r").withChild twofold).every readableAttributes = true := by
    decide +kernel
  obtain ⟨s, hs⟩ := exists_ok_of_isOk hok
  refine ⟨hmade, hencoding, s, hs, fun hd => hunreadable ?_⟩
  exact (((parse_written_iff hmade hencoding).2.1 s hs).1).mp hd

/-- **One attribute is written and two are read**: its name is not valid, but it is not
refused. A name with a blank in it is written as well, and cannot be read. -/
theorem parse_write_twofold :
    (isValidName "b=\"1\" c" = false ∧ twofold.write = .ok "<a b=\"1\" c=\"v\"/>" ∧
      Node.parse "<a b=\"1\" c=\"v\"/>"
        = .ok { name := "a", attributes := [("b", "1"), ("c", "v")], children := [] }) ∧
    (isValidName "b c" = false ∧
      ((named "a").setAttribute "b c" "v").write = .ok "<a b c=\"v\"/>" ∧
      Node.parse "<a b c=\"v\"/>" = .error .attribute) := by
  decide +kernel

end Node

end EventWire.Xml

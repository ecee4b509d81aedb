import EventWire.Proofs.Xml.Distinct
import EventWire.Proofs.Xml.Joined
import EventWire.Proofs.Xml.RoundTrip

/-!
# Trees that were read

A reader drops blank texts and joins neighbouring CDATA, takes whatever stands before `=`
for the name of an attribute, and lets no name come twice (`Node.AsRead`). It does not join
texts: a comment between two of them leaves no trace, but they stay two. Writing puts them
side by side, so they are read as one. That is all that another reading changes
(`AsRead.norm_eq_joined`), if the elements have names that can be written and no name of
an attribute leaves a quote open (`AsRead.parse_write`).
-/

namespace EventWire.Xml

/-! ## What a reader leaves in a tree -/

/-- True when no child is blank text, and no two sections of CDATA stand side by side. -/
def gathered (cs : List Content) : Bool :=
  (cs.all fun c => !c.isBlankText) && apartBy Content.bothCdata cs

theorem gathered_cons {c : Content} {cs : List Content} :
    gathered (c :: cs) = true ↔
      (c.isBlankText = false ∧ ∀ d ∈ cs.head?, c.bothCdata d = false) ∧ gathered cs = true := by
  rw [gathered, gathered, Bool.and_eq_true, Bool.and_eq_true, List.all_cons, Bool.and_eq_true,
    Bool.not_eq_true', apartBy_cons]
  exact and_and_and_comm

theorem gathered_addCdata (s : String) {cs : List Content} (h : gathered cs = true) :
    gathered (addCdata s cs) = true := by
  unfold addCdata
  split
  · next t more =>
    -- The section is longer than before, and its neighbour is the same.
    obtain ⟨⟨-, hhead⟩, hmore⟩ := gathered_cons.mp h
    have hsame (d : Content) :
        (Content.cdata (t ++ s)).bothCdata d = (Content.cdata t).bothCdata d := by
      cases d with
      | _ => rfl
    exact gathered_cons.mpr ⟨⟨rfl, fun d hd => (hsame d).trans (hhead d hd)⟩, hmore⟩
  · next hnot =>
    refine gathered_cons.mpr ⟨⟨rfl, fun d hd => ?_⟩, h⟩
    cases d with
    | cdata t =>
      obtain ⟨more, hmore⟩ := List.head?_eq_some_iff.mp hd
      exact absurd hmore (hnot t more)
    | text t => rfl
    | element name attributes children => rfl

theorem gathered_reverse (cs : List Content) : gathered cs.reverse = gathered cs := by
  rw [gathered, gathered, List.all_reverse, apartBy_reverse Content.bothCdata_comm]

theorem filter_of_gathered {cs : List Content} (h : gathered cs = true) :
    (cs.filter fun c => !c.isBlankText) = cs := by
  rw [gathered, Bool.and_eq_true, List.all_eq_true] at h
  exact List.filter_eq_self.mpr h.1

theorem joinCdata_of_gathered {cs : List Content} (h : gathered cs = true) : joinCdata cs = cs := by
  rw [gathered, Bool.and_eq_true] at h
  exact joinCdata_of_apartBy h.2

theorem gathered_frontText {s : String} (hs : Text.blankOnly s.toList = false) {cs : List Content}
    (h : gathered cs = true) : gathered (frontText s cs) = true := by
  unfold frontText
  split
  · next t rest =>
    have hlonger : Text.blankOnly (s ++ t).toList = false := by
      rw [String.toList_append, Text.blankOnly, List.all_append, ← Text.blankOnly, hs,
        Bool.false_and]
    exact gathered_cons.mpr ⟨⟨hlonger, fun _ _ => rfl⟩, (gathered_cons.mp h).2⟩
  · exact gathered_cons.mpr ⟨⟨hs, fun _ _ => rfl⟩, h⟩

/-- Joining texts brings no CDATA to the front. -/
theorem not_bothCdata_head?_joinTexts {c : Content} {cs : List Content}
    (h : ∀ d ∈ cs.head?, c.bothCdata d = false) :
    ∀ d ∈ (joinTexts cs).head?, c.bothCdata d = false := by
  cases cs with
  | nil => exact h
  | cons first rest =>
    cases first with
    | cdata s => exact h
    | element name attributes children => exact h
    | text s =>
      intro d hd
      rw [joinTexts] at hd
      unfold frontText at hd
      split at hd
      · cases hd
        exact c.bothCdata_comm _
      · cases hd
        exact c.bothCdata_comm _

theorem gathered_joinTexts {cs : List Content} (h : gathered cs = true) :
    gathered (joinTexts cs) = true := by
  induction cs with
  | nil => rfl
  | cons c rest ih =>
    obtain ⟨⟨hc, hhead⟩, hrest⟩ := gathered_cons.mp h
    have hjoined := not_bothCdata_head?_joinTexts hhead
    cases c with
    | text s => exact gathered_frontText hc (ih hrest)
    | cdata s => exact gathered_cons.mpr ⟨⟨rfl, hjoined⟩, ih hrest⟩
    | element name attributes children => exact gathered_cons.mpr ⟨⟨rfl, hjoined⟩, ih hrest⟩

theorem gathered_joinedAll (cs : List Content) :
    gathered (Content.joinedAll cs) = gathered cs := by
  have hblank (c : Content) : c.joined.isBlankText = c.isBlankText := by
    cases c with
    | _ => rfl
  have hboth (c d : Content) : c.joined.bothCdata d.joined = c.bothCdata d := by
    cases c <;> cases d <;> rfl
  rw [joinedAll_eq_map, gathered, gathered, apartBy_map hboth, List.all_map]
  simp only [Function.comp_def, hblank]

/-- Once their texts are joined, there is nothing to do for children that are gathered. -/
theorem tidy_of_gathered {cs : List Content} (h : gathered cs = true) : tidy cs = joinTexts cs := by
  have hjoined := gathered_joinTexts h
  rw [tidy, filter_of_gathered hjoined, joinCdata_of_gathered hjoined]

theorem normAll_of_gathered (cs : List Content) :
    (∀ c ∈ cs, c.within gathered = true) → Content.normAll cs = Content.joinedAll cs := by
  induction cs using childrenInduction with
  | nil => exact fun _ => rfl
  | text s cs ih =>
    intro h
    rw [Content.normAll, Content.joinedAll, Content.norm, Content.joined,
      ih (List.forall_mem_cons.mp h).2]
  | cdata s cs ih =>
    intro h
    rw [Content.normAll, Content.joinedAll, Content.norm, Content.joined,
      ih (List.forall_mem_cons.mp h).2]
  | element name attributes children cs ihchildren ih =>
    intro h
    obtain ⟨helement, hcs⟩ := List.forall_mem_cons.mp h
    obtain ⟨hgathered, hchildren⟩ := within_element.mp helement
    rw [Content.normAll, Content.joinedAll, Content.norm, Content.joined, ihchildren hchildren,
      tidy_of_gathered ((gathered_joinedAll children).trans hgathered), ih hcs]

/-- The children are gathered so far, and all that is in them. -/
structure OpenElement.Gathered (e : OpenElement) : Prop where
  done : gathered e.done = true
  within : ∀ c ∈ e.done, c.within gathered = true

theorem OpenElement.Gathered.toNode {e : OpenElement} (h : e.Gathered) :
    e.toNode.within gathered = true := by
  refine within_element.mpr ⟨?_, fun c hc => h.within c (List.mem_reverse.mp hc)⟩
  rw [OpenElement.toNode, gathered_reverse]
  exact h.done

theorem kept_gathered : Kept OpenElement.Gathered where
  opened _ _ := ⟨rfl, fun _ hc => nomatch hc⟩
  element he hinner :=
    ⟨gathered_cons.mpr ⟨⟨rfl, fun _ _ => rfl⟩, he.done⟩,
      List.forall_mem_cons.mpr ⟨hinner.toNode, he.within⟩⟩
  text he hs :=
    ⟨gathered_cons.mpr ⟨⟨hs, fun _ _ => rfl⟩, he.done⟩, List.forall_mem_cons.mpr ⟨rfl, he.within⟩⟩
  cdata he s := ⟨gathered_addCdata s he.done, forall_addCdata (fun _ => rfl) s he.within⟩

theorem isReadName_readAttribute? {first : Char} {rest after : List Char}
    {item : List Char × List Char} (hfirst : Text.isPlainBlank first = false)
    (h : readAttribute? first rest = some (item, after)) : isReadName item.1 = true := by
  unfold readAttribute? at h
  dsimp only at h
  split at h
  · obtain ⟨⟨value, left⟩, -, heq⟩ := Option.map_eq_some_iff.mp h
    cases heq
    rw [isReadName, hfirst, Bool.not_false, Bool.true_and, List.all_takeWhile]
  · cases h

theorem isReadName_rawAttributesWithin (fuel : Nat) : ∀ cs,
    ∀ item ∈ (rawAttributesWithin fuel cs).items, isReadName item.1 = true := by
  induction fuel with
  | zero => exact fun _ _ h => nomatch h
  | succ fuel ih =>
    intro cs item hitem
    rw [rawAttributesWithin] at hitem
    split at hitem
    · cases hitem
    · next first rest hcs =>
      have hfirst : Text.isPlainBlank first = false := by
        have hhead := List.head?_dropWhile_not Text.isPlainBlank cs
        rw [hcs] at hhead
        simpa using hhead
      split at hitem
      · cases hitem
      · next read after hread =>
        rcases List.mem_cons.mp hitem with rfl | hlater
        · exact isReadName_readAttribute? hfirst hread
        · exact ih after item hlater

theorem readNames_readAttributes {broken : Bool} {raw : List (List Char × List Char)}
    (hraw : ∀ item ∈ raw, isReadName item.1 = true) :
    ∀ {before attributes : List (String × String)},
      (∀ a ∈ before, isReadName a.1.toList = true) →
      Builder.readAttributes broken before raw = .ok attributes →
        ∀ a ∈ attributes, isReadName a.1.toList = true := by
  induction raw with
  | nil =>
    intro before attributes hbefore h
    rw [Builder.readAttributes] at h
    split at h
    · cases h
    · cases h
      exact hbefore
  | cons item rest ih =>
    intro before attributes hbefore h
    obtain ⟨hitem, hrest⟩ := List.forall_mem_cons.mp hraw
    rw [Builder.readAttributes] at h
    split at h
    · cases h
    · split at h
      · cases h
      · refine ih hrest (List.forall_mem_append.mpr ⟨hbefore, ?_⟩) h
        exact List.forall_mem_singleton.mpr (String.toList_ofList ▸ hitem)

theorem readNames_attributesOf {cs : List Char} {attributes : List (String × String)}
    (h : Builder.attributesOf cs = .ok attributes) (name : String) :
    readNames name attributes = true :=
  List.all_eq_true.mpr (@readNames_readAttributes _ _ (isReadName_rawAttributesWithin cs.length cs)
    [] attributes (fun _ ha => nomatch ha) h)

namespace Node

/-- What is so of all trees that are read, and of the elements in them. -/
structure AsRead (n : Node) : Prop where
  distinct : n.every distinctAttributes = true
  names : n.every readNames = true
  gathered : n.within gathered = true

/-- **Trees that are read are as read.** -/
theorem asRead_of_parse {s : String} {n : Node} (h : Node.parse s = .ok n) : n.AsRead where
  distinct := distinct_of_parse h
  names := every_of_parse readNames_attributesOf h
  gathered := by
    obtain ⟨e, he, rfl⟩ := exists_open_of_parse kept_gathered h
    exact he.toNode

variable {n : Node}

theorem within_of_mem_elements {q : List Content → Bool} {m : Node} (h : n.within q = true)
    (hm : m ∈ n.elements) : m.within q = true :=
  (within_element.mp h).2 _ (toContent_mem_children hm)

theorem AsRead.of_mem_elements {m : Node} (h : n.AsRead) (hm : m ∈ n.elements) : m.AsRead where
  distinct := every_of_mem_elements h.distinct hm
  names := every_of_mem_elements h.names hm
  gathered := within_of_mem_elements h.gathered hm

/-- **Reading a tree again joins its texts**, and changes nothing else. -/
theorem AsRead.norm_eq_joined (h : n.AsRead) : n.norm = n.joined := by
  obtain ⟨hgathered, hchildren⟩ := within_iff.mp h.gathered
  rw [norm, joined, normAll_of_gathered _ hchildren,
    tidy_of_gathered ((gathered_joinedAll n.children).trans hgathered)]

/-- Reading a tree again leaves it alone exactly if its texts stand apart. -/
theorem AsRead.norm_eq_self_iff (h : n.AsRead) : n.norm = n ↔ n.textsApart = true := by
  rw [h.norm_eq_joined, joined_eq_self_iff]

/-- **A tree that was read is read from its text as its normal form**, if no name of an
attribute leaves a quote open. -/
theorem AsRead.parse_write (h : n.AsRead) (hquotes : n.every closedQuotes = true) {s : String}
    (hwrite : n.write = .ok s) : Node.parse s = .ok n.norm :=
  parse_write_of_readable (every_and h.names hquotes) h.distinct hwrite

end Node

end EventWire.Xml

import EventWire.Proofs.Xml.Joined

/-!
# What the normal form leaves alone

The normal form is about texts and neighbours. Take the texts away and join the CDATA
that is left side by side: what a tree is then, its normal form is too, so elements,
attributes and CDATA are as they were (`withoutTexts_norm`). And a tree with no blank
text and no two texts or sections of CDATA side by side is its own normal form
(`norm_of_settled`).
-/

namespace EventWire.Xml

/-! ## Everything but texts -/

/-- Children without the texts among them and in them, and with neighbouring CDATA
joined. -/
def Content.withoutTexts : List Content → List Content
  | [] => []
  | .text _ :: rest => withoutTexts rest
  | .cdata s :: rest => frontCdata s (withoutTexts rest)
  | .element name attributes children :: rest =>
    .element name attributes (withoutTexts children) :: withoutTexts rest

/-- An element without the texts in it, and with neighbouring CDATA joined. -/
def Node.withoutTexts (n : Node) : Node :=
  { n with children := Content.withoutTexts n.children }

theorem withoutTexts_frontCdata (s : String) (cs : List Content) :
    Content.withoutTexts (frontCdata s cs) = frontCdata s (Content.withoutTexts cs) := by
  match cs with
  | [] => simp only [frontCdata, Content.withoutTexts]
  | .cdata t :: rest =>
    rw [frontCdata, Content.withoutTexts, Content.withoutTexts, frontCdata_frontCdata]
  | .text _ :: _ => simp only [frontCdata, Content.withoutTexts]
  | .element .. :: _ => simp only [frontCdata, Content.withoutTexts]

theorem withoutTexts_joinCdata (cs : List Content) :
    Content.withoutTexts (joinCdata cs) = Content.withoutTexts cs := by
  induction cs with
  | nil => rfl
  | cons c rest ih =>
    cases c with
    | text s =>
      rw [joinCdata_cons_of_ne_cdata (fun _ => Content.noConfusion), Content.withoutTexts, ih,
        Content.withoutTexts]
    | cdata s => rw [joinCdata, withoutTexts_frontCdata, ih, Content.withoutTexts]
    | element name attributes children =>
      rw [joinCdata_cons_of_ne_cdata (fun _ => Content.noConfusion), Content.withoutTexts, ih,
        Content.withoutTexts]

theorem withoutTexts_filter (cs : List Content) :
    Content.withoutTexts (cs.filter fun c => !c.isBlankText) = Content.withoutTexts cs := by
  induction cs with
  | nil => rfl
  | cons c rest ih =>
    cases c with
    | text s =>
      rw [List.filter_cons, Content.withoutTexts]
      split
      · rw [Content.withoutTexts, ih]
      · exact ih
    | cdata s =>
      rw [List.filter_cons_of_pos rfl, Content.withoutTexts, ih, Content.withoutTexts]
    | element name attributes children =>
      rw [List.filter_cons_of_pos rfl, Content.withoutTexts, ih, Content.withoutTexts]

theorem withoutTexts_joinTexts (cs : List Content) :
    Content.withoutTexts (joinTexts cs) = Content.withoutTexts cs := by
  induction cs with
  | nil => rfl
  | cons c rest ih =>
    cases c with
    | text s =>
      rw [joinTexts, Content.withoutTexts, ← ih]
      unfold frontText
      split
      · next t more h => rw [h, Content.withoutTexts, Content.withoutTexts]
      · rw [Content.withoutTexts]
    | cdata s => simp only [joinTexts, Content.withoutTexts, ih]
    | element name attributes children => simp only [joinTexts, Content.withoutTexts, ih]

theorem withoutTexts_tidy (cs : List Content) :
    Content.withoutTexts (tidy cs) = Content.withoutTexts cs := by
  rw [tidy, withoutTexts_joinCdata, withoutTexts_filter, withoutTexts_joinTexts]

theorem withoutTexts_normAll (cs : List Content) :
    Content.withoutTexts (Content.normAll cs) = Content.withoutTexts cs := by
  induction cs using childrenInduction with
  | nil => rfl
  | text s cs ih =>
    rw [Content.normAll, Content.norm, Content.withoutTexts, ih, Content.withoutTexts]
  | cdata s cs ih =>
    rw [Content.normAll, Content.norm, Content.withoutTexts, ih, Content.withoutTexts]
  | element name attributes children cs ihchildren ih =>
    rw [Content.normAll, Content.norm, Content.withoutTexts, ih, Content.withoutTexts,
      withoutTexts_tidy, ihchildren]

/-- **Texts apart, a tree and its normal form are the same.** -/
theorem withoutTexts_norm (n : Node) : n.norm.withoutTexts = n.withoutTexts := by
  rw [Node.withoutTexts, Node.norm, withoutTexts_tidy, withoutTexts_normAll]
  rfl

/-! ## Trees in normal form -/

/-- True for children that are joined when they stand side by side. -/
def Content.joins : Content → Content → Bool
  | .text _, .text _ => true
  | .cdata _, .cdata _ => true
  | _, _ => false

/-- True when no two children that stand side by side are joined. -/
def apart : List Content → Bool
  | c :: d :: rest => !c.joins d && apart (d :: rest)
  | _ => true

mutual

/-- True when a child is no blank text, and nothing in it is blank text or joined. -/
def Content.settled : Content → Bool
  | .element _ _ children => apart children && settledIn children
  | .text s => !Text.blankOnly s.toList
  | .cdata _ => true

/-- True when each child is settled. -/
def Content.settledIn : List Content → Bool
  | [] => true
  | c :: rest => c.settled && settledIn rest

end

/-- True when nothing in the element is blank text or joined. -/
def Node.settled (n : Node) : Bool :=
  n.toContent.settled

theorem settledIn_cons {c : Content} {cs : List Content} :
    Content.settledIn (c :: cs) = true ↔ c.settled = true ∧ Content.settledIn cs = true := by
  rw [Content.settledIn, Bool.and_eq_true]

theorem settled_element {name : String} {attributes : List (String × String)}
    {children : List Content} :
    (Content.element name attributes children).settled = true
      ↔ apart children = true ∧ Content.settledIn children = true := by
  rw [Content.settled, Bool.and_eq_true]

theorem Content.joins_eq (c d : Content) : c.joins d = (c.bothTexts d || c.bothCdata d) := by
  cases c <;> cases d <;> rfl

theorem apartBy_of_apart {both : Content → Content → Bool}
    (hboth : ∀ c d, both c d = true → c.joins d = true) {cs : List Content}
    (h : apart cs = true) : apartBy both cs = true := by
  induction cs with
  | nil => rfl
  | cons c rest ih =>
    cases rest with
    | nil => rfl
    | cons d more =>
      rw [apart, Bool.and_eq_true, Bool.not_eq_true'] at h
      refine apartBy_cons.mpr ⟨?_, ih h.2⟩
      rintro d ⟨⟩
      exact Bool.eq_false_iff.mpr fun hcd => Bool.false_ne_true (h.1.symm.trans (hboth c d hcd))

theorem joinTexts_of_apart {cs : List Content} (h : apart cs = true) : joinTexts cs = cs := by
  refine joinTexts_of_apartBy (apartBy_of_apart (fun c d hcd => ?_) h)
  rw [Content.joins_eq, hcd, Bool.true_or]

theorem joinCdata_of_apart {cs : List Content} (h : apart cs = true) : joinCdata cs = cs := by
  refine joinCdata_of_apartBy (apartBy_of_apart (fun c d hcd => ?_) h)
  rw [Content.joins_eq, hcd, Bool.or_true]

theorem filter_of_settledIn {cs : List Content} (h : Content.settledIn cs = true) :
    (cs.filter fun c => !c.isBlankText) = cs := by
  induction cs with
  | nil => rfl
  | cons c rest ih =>
    obtain ⟨hc, hrest⟩ := settledIn_cons.mp h
    have hkept : (!c.isBlankText) = true := by
      cases c with
      | text s => exact hc
      | cdata s => rfl
      | element name attributes children => rfl
    rw [List.filter_cons, if_pos hkept, ih hrest]

theorem tidy_of_settledIn {cs : List Content} (hapart : apart cs = true)
    (hsettled : Content.settledIn cs = true) : tidy cs = cs := by
  rw [tidy, joinTexts_of_apart hapart, filter_of_settledIn hsettled, joinCdata_of_apart hapart]

theorem normAll_of_settledIn (cs : List Content) :
    Content.settledIn cs = true → Content.normAll cs = cs := by
  induction cs using childrenInduction with
  | nil =>
    intro _
    rfl
  | text s cs ih =>
    intro h
    rw [Content.normAll, Content.norm, ih (settledIn_cons.mp h).2]
  | cdata s cs ih =>
    intro h
    rw [Content.normAll, Content.norm, ih (settledIn_cons.mp h).2]
  | element name attributes children cs ihchildren ih =>
    intro h
    obtain ⟨helement, hcs⟩ := settledIn_cons.mp h
    obtain ⟨hapart, hchildren⟩ := settled_element.mp helement
    rw [Content.normAll, Content.norm, ihchildren hchildren, tidy_of_settledIn hapart hchildren,
      ih hcs]

/-- **A settled tree is its own normal form.** -/
theorem norm_of_settled {n : Node} (h : n.settled = true) : n.norm = n := by
  obtain ⟨hapart, hchildren⟩ := settled_element.mp h
  rw [Node.norm, normAll_of_settledIn _ hchildren, tidy_of_settledIn hapart hchildren]

end EventWire.Xml

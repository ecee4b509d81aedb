import EventWire.Proofs.Xml.Normal
import Mathlib.Data.List.Chain

/-!
# Texts and CDATA side by side

Whether any two children of a kind stand side by side is asked for each kind by itself
(`apartBy`). Where no two texts do, there is nothing to join, and where no two sections of
CDATA do, neither. A tree may have its texts joined and nothing else (`Node.joined`): it stays
what it is exactly if its texts stand apart (`Node.joined_eq_self_iff`).
-/

namespace EventWire.Xml

/-! ## Properties of children -/

mutual

/-- True when the children of every element pass a test. -/
def Content.within (q : List Content → Bool) : Content → Bool
  | .element _ _ children => q children && withinAll q children
  | .text _ => true
  | .cdata _ => true

/-- True when all of this holds in each child. -/
def Content.withinAll (q : List Content → Bool) : List Content → Bool
  | [] => true
  | c :: rest => c.within q && withinAll q rest

end

/-- True when the children of every element pass a test. -/
def Node.within (q : List Content → Bool) (n : Node) : Bool :=
  n.toContent.within q

section Within

variable {q : List Content → Bool}

theorem withinAll_iff {cs : List Content} :
    Content.withinAll q cs = true ↔ ∀ c ∈ cs, c.within q = true := by
  induction cs with
  | nil => exact iff_of_true rfl (List.forall_mem_nil _)
  | cons c rest ih => rw [Content.withinAll, Bool.and_eq_true, ih, List.forall_mem_cons]

theorem within_element {name : String} {attributes : List (String × String)}
    {children : List Content} :
    (Content.element name attributes children).within q = true
      ↔ q children = true ∧ ∀ c ∈ children, c.within q = true := by
  rw [Content.within, Bool.and_eq_true, withinAll_iff]

theorem Node.within_iff {n : Node} :
    n.within q = true ↔ q n.children = true ∧ ∀ c ∈ n.children, c.within q = true := by
  rw [within, toContent, within_element]

end Within

/-! ## Neighbours -/

/-- True for two texts. -/
def Content.bothTexts : Content → Content → Bool
  | .text _, .text _ => true
  | _, _ => false

/-- True for two sections of CDATA. -/
def Content.bothCdata : Content → Content → Bool
  | .cdata _, .cdata _ => true
  | _, _ => false

theorem Content.bothCdata_comm (c d : Content) : c.bothCdata d = d.bothCdata c := by
  cases c <;> cases d <;> rfl

/-- True when no two neighbours are of a kind. -/
def apartBy (both : Content → Content → Bool) (cs : List Content) : Bool :=
  decide (cs.IsChain fun c d => both c d = false)

section Apart

variable {both : Content → Content → Bool}

theorem apartBy_cons {c : Content} {cs : List Content} :
    apartBy both (c :: cs) = true ↔
      (∀ d ∈ cs.head?, both c d = false) ∧ apartBy both cs = true := by
  rw [apartBy, apartBy, decide_eq_true_iff, decide_eq_true_iff, List.isChain_cons]

theorem apartBy_reverse (h : ∀ c d, both c d = both d c) (cs : List Content) :
    apartBy both cs.reverse = apartBy both cs := by
  have hflip : (fun c d => both d c = false) = fun c d => both c d = false := by
    funext c d
    rw [h]
  rw [apartBy, apartBy, decide_eq_decide, List.isChain_reverse, hflip]

theorem apartBy_map {f : Content → Content} (h : ∀ c d, both (f c) (f d) = both c d)
    (cs : List Content) : apartBy both (cs.map f) = apartBy both cs := by
  rw [apartBy, apartBy, decide_eq_decide, List.isChain_map]
  simp only [h]

end Apart

theorem joinTexts_of_apartBy {cs : List Content} (h : apartBy Content.bothTexts cs = true) :
    joinTexts cs = cs := by
  induction cs with
  | nil => rfl
  | cons c rest ih =>
    obtain ⟨hhead, hrest⟩ := apartBy_cons.mp h
    cases c with
    | text s =>
      rw [joinTexts, ih hrest]
      cases rest with
      | nil => rfl
      | cons d more =>
        cases d with
        | text t => cases hhead (.text t) rfl
        | cdata t => rfl
        | element name attributes children => rfl
    | cdata s => exact congrArg _ (ih hrest)
    | element name attributes children => exact congrArg _ (ih hrest)

theorem joinCdata_of_apartBy {cs : List Content} (h : apartBy Content.bothCdata cs = true) :
    joinCdata cs = cs := by
  induction cs with
  | nil => rfl
  | cons c rest ih =>
    obtain ⟨hhead, hrest⟩ := apartBy_cons.mp h
    cases c with
    | cdata s =>
      rw [joinCdata, ih hrest]
      cases rest with
      | nil => rfl
      | cons d more =>
        cases d with
        | text t => rfl
        | cdata t => cases hhead (.cdata t) rfl
        | element name attributes children => rfl
    | text s => exact congrArg _ (ih hrest)
    | element name attributes children => exact congrArg _ (ih hrest)

/-! ## Trees with their texts joined -/

mutual

/-- A child with neighbouring texts in it joined. -/
def Content.joined : Content → Content
  | .element name attributes children => .element name attributes (joinTexts (joinedAll children))
  | .text s => .text s
  | .cdata s => .cdata s

/-- Children with neighbouring texts in each of them joined. -/
def Content.joinedAll : List Content → List Content
  | [] => []
  | c :: rest => c.joined :: joinedAll rest

end

/-- An element with neighbouring texts in it joined. -/
def Node.joined (n : Node) : Node :=
  { n with children := joinTexts (Content.joinedAll n.children) }

/-- True when no two texts stand side by side anywhere in the element. -/
def Node.textsApart (n : Node) : Bool :=
  n.within (apartBy Content.bothTexts)

theorem Node.joined_toContent (n : Node) : n.joined.toContent = n.toContent.joined := by
  rw [Node.toContent, Node.toContent, Content.joined]
  rfl

theorem joinedAll_eq_map (cs : List Content) : Content.joinedAll cs = cs.map Content.joined := by
  induction cs with
  | nil => rfl
  | cons c rest ih => rw [Content.joinedAll, ih, List.map_cons]

theorem apartBy_frontText (s : String) {cs : List Content}
    (h : apartBy Content.bothTexts cs = true) :
    apartBy Content.bothTexts (frontText s cs) = true := by
  unfold frontText
  split
  · next t rest =>
    -- The text is longer than before, and its neighbour is the same.
    obtain ⟨hhead, hrest⟩ := apartBy_cons.mp h
    refine apartBy_cons.mpr ⟨fun d hd => ?_, hrest⟩
    cases d with
    | text u => cases hhead (.text u) hd
    | cdata u => rfl
    | element name attributes children => rfl
  · next hnot =>
    refine apartBy_cons.mpr ⟨fun d hd => ?_, h⟩
    cases d with
    | text t =>
      obtain ⟨rest, hrest⟩ := List.head?_eq_some_iff.mp hd
      exact absurd hrest (hnot t rest)
    | cdata t => rfl
    | element name attributes children => rfl

/-- Once texts are joined, no two of them stand side by side. -/
theorem apartBy_joinTexts (cs : List Content) :
    apartBy Content.bothTexts (joinTexts cs) = true := by
  induction cs with
  | nil => rfl
  | cons c rest ih =>
    cases c with
    | text s => exact apartBy_frontText s ih
    | cdata s => exact apartBy_cons.mpr ⟨fun _ _ => rfl, ih⟩
    | element name attributes children => exact apartBy_cons.mpr ⟨fun _ _ => rfl, ih⟩

/-- What is so of every child, and of any text, is so when texts are joined. -/
theorem forall_joinTexts {P : Content → Prop} (htext : ∀ s, P (.text s)) {cs : List Content}
    (h : ∀ c ∈ cs, P c) : ∀ c ∈ joinTexts cs, P c := by
  induction cs with
  | nil => exact h
  | cons c rest ih =>
    obtain ⟨hc, hrest⟩ := List.forall_mem_cons.mp h
    cases c with
    | text s =>
      rw [joinTexts]
      unfold frontText
      split
      · next t more hjoined =>
        have hmore := ih hrest
        rw [hjoined] at hmore
        exact List.forall_mem_cons.mpr ⟨htext _, (List.forall_mem_cons.mp hmore).2⟩
      · exact List.forall_mem_cons.mpr ⟨htext _, ih hrest⟩
    | cdata s => exact List.forall_mem_cons.mpr ⟨hc, ih hrest⟩
    | element name attributes children => exact List.forall_mem_cons.mpr ⟨hc, ih hrest⟩

theorem within_joinedAll (cs : List Content) :
    ∀ c ∈ Content.joinedAll cs, c.within (apartBy Content.bothTexts) = true := by
  induction cs using childrenInduction with
  | nil => exact List.forall_mem_nil _
  | text s cs ih => exact List.forall_mem_cons.mpr ⟨rfl, ih⟩
  | cdata s cs ih => exact List.forall_mem_cons.mpr ⟨rfl, ih⟩
  | element name attributes children cs ihchildren ih =>
    rw [Content.joinedAll, Content.joined]
    exact List.forall_mem_cons.mpr
      ⟨within_element.mpr ⟨apartBy_joinTexts _, forall_joinTexts (fun _ => rfl) ihchildren⟩, ih⟩

theorem joinedAll_of_within (cs : List Content) :
    (∀ c ∈ cs, c.within (apartBy Content.bothTexts) = true) → Content.joinedAll cs = cs := by
  induction cs using childrenInduction with
  | nil => exact fun _ => rfl
  | text s cs ih =>
    intro h
    rw [Content.joinedAll, Content.joined, ih (List.forall_mem_cons.mp h).2]
  | cdata s cs ih =>
    intro h
    rw [Content.joinedAll, Content.joined, ih (List.forall_mem_cons.mp h).2]
  | element name attributes children cs ihchildren ih =>
    intro h
    obtain ⟨helement, hcs⟩ := List.forall_mem_cons.mp h
    obtain ⟨hapart, hchildren⟩ := within_element.mp helement
    rw [Content.joinedAll, Content.joined, ihchildren hchildren, joinTexts_of_apartBy hapart,
      ih hcs]

/-- **Joining texts leaves a tree alone exactly if its texts stand apart.** -/
theorem Node.joined_eq_self_iff {n : Node} : n.joined = n ↔ n.textsApart = true := by
  constructor
  · intro h
    have hall := within_joinedAll [n.toContent]
    rw [← h, textsApart, within, joined_toContent]
    exact hall _ (List.mem_singleton_self _)
  · intro h
    obtain ⟨hapart, hchildren⟩ := Node.within_iff.mp h
    rw [joined, joinedAll_of_within _ hchildren, joinTexts_of_apartBy hapart]

end EventWire.Xml

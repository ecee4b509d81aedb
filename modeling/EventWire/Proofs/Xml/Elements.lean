import EventWire.Proofs.Xml.Normal

/-!
# Elements that hold elements, or one thing

Records in XML are made of two shapes. An element that holds nothing but elements
stays such an element in normal form (`norm_ofElements`), and its elements are found
by their names as before. An element that holds a single text gives that text back
unless it is blank (`text_norm_withText`), and one that holds any other single child
keeps it (`norm_push`).
-/

namespace EventWire.Xml.Node

/-- An element with elements in it and nothing else. -/
def ofElements (name : String) (ns : List Node) : Node where
  name := name
  attributes := []
  children := ns.map toContent

theorem tidy_cons_element (name : String) (attributes : List (String × String))
    (children rest : List Content) :
    tidy (.element name attributes children :: rest)
      = .element name attributes children :: tidy rest := by
  rw [tidy, joinTexts, List.filter_cons_of_pos rfl, joinCdata, tidy]
  · exact fun s => Content.noConfusion
  · exact fun s => Content.noConfusion

/-- **An element of elements in normal form is one of elements in normal form.** -/
theorem norm_ofElements (name : String) (ns : List Node) :
    (ofElements name ns).norm = ofElements name (ns.map norm) := by
  have hchildren : tidy (Content.normAll (ns.map toContent)) = (ns.map norm).map toContent := by
    induction ns with
    | nil => rfl
    | cons n rest ih =>
      rw [List.map_cons, Content.normAll, ← norm_toContent, List.map_cons, List.map_cons, ← ih]
      exact tidy_cons_element _ _ _ _
  rw [norm, ofElements, hchildren]
  rfl

theorem elements_ofElements (name : String) (ns : List Node) :
    (ofElements name ns).elements = ns := by
  rw [elements, ofElements]
  induction ns with
  | nil => rfl
  | cons n rest ih =>
    rw [List.map_cons, List.filterMap_cons]
    dsimp only [toContent]
    rw [ih]

theorem child?_ofElements (name : String) (ns : List Node) (key : String) :
    (ofElements name ns).child? key = ns.find? fun e => e.name = key := by
  rw [child?, elements_ofElements]

theorem every_ofElements {p : TagTest} {name : String} {ns : List Node} (hname : p name [] = true)
    (h : ∀ n ∈ ns, n.every p = true) : (ofElements name ns).every p = true := by
  refine every_element.mpr ⟨hname, everyIn_iff.mpr fun c hc => ?_⟩
  obtain ⟨n, hn, rfl⟩ := List.mem_map.mp hc
  exact h n hn

/-! ## A single child -/

theorem norm_push (name : String) {c : Content} (h : ∀ s, c ≠ .text s) :
    ((named name).push c).norm = (named name).push c.norm := by
  have hchildren : tidy (Content.normAll [c]) = [c.norm] := by
    cases c with
    | element name attributes children =>
      rw [Content.normAll, Content.normAll, Content.norm]
      exact tidy_cons_element _ _ _ _
    | text s => exact absurd rfl (h s)
    | cdata s =>
      rw [Content.normAll, Content.normAll, Content.norm]
      rfl
  rw [norm]
  show { name := name, attributes := [], children := tidy (Content.normAll [c]) : Node } = _
  rw [hchildren]
  rfl

/-- An element says its text, unless that is blank. -/
theorem text_norm_withText_eq (name s : String) :
    ((named name).withText s).norm.text = if Text.blankOnly s.toList then "" else s := by
  have hchildren : tidy (Content.normAll [.text s])
      = if Text.blankOnly s.toList then [] else [.text s] := by
    rw [Content.normAll, Content.normAll, Content.norm, tidy]
    show joinCdata (visible [.text s]) = _
    rw [visible_text_nil]
    split
    · rfl
    · rfl
  show ({ name, attributes := [], children := tidy (Content.normAll [.text s]) } : Node).text = _
  rw [hchildren]
  split
  · rfl
  · exact String.empty_append

/-- Text that is not blank is what the element says. -/
theorem text_norm_withText {name s : String} (h : Text.blankOnly s.toList = true → s = "") :
    ((named name).withText s).norm.text = s := by
  rw [text_norm_withText_eq]
  split
  · next hblank => exact (h hblank).symm
  · rfl

end EventWire.Xml.Node

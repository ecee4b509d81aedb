import EventWire.Xml.Document
import EventWire.Xml.Name

/-!
# Properties of whole trees

`Content.every p` says that the tag of every element has a property: that its name is
valid (`validName`), that its attributes have valid names (`validAttributes`), or that
no attribute is given twice (`distinctAttributes`). Whatever is built with
`Node.setAttribute`, and whatever is read, has no attribute twice.

`childrenInduction` is the induction on the children of an element: what is to be
shown for an element in the list may be assumed for its own children.
-/

namespace EventWire.Xml

/-- A property of tags: of a name and attributes. -/
abbrev TagTest := String → List (String × String) → Bool

mutual

/-- True when every tag passes the test. -/
def Content.every (p : TagTest) : Content → Bool
  | .element name attributes children => p name attributes && everyIn p children
  | .text _ => true
  | .cdata _ => true

/-- True when every tag among the children passes the test. -/
def Content.everyIn (p : TagTest) : List Content → Bool
  | [] => true
  | c :: rest => c.every p && everyIn p rest

end

/-- True when every tag of the element passes the test. -/
def Node.every (p : TagTest) (n : Node) : Bool :=
  n.toContent.every p

/-- The name of the element can be written. -/
def validName : TagTest := fun name _ => isValidName name

/-- The names of the attributes could be names of elements. -/
def validAttributes : TagTest := fun _ attributes => attributes.all fun a => isValidName a.1

/-- No attribute is given twice. -/
def distinctAttributes : TagTest := fun _ attributes => decide (attributes.map (·.1)).Nodup

theorem everyIn_cons {p : TagTest} {c : Content} {cs : List Content} :
    Content.everyIn p (c :: cs) = true ↔ c.every p = true ∧ Content.everyIn p cs = true := by
  rw [Content.everyIn, Bool.and_eq_true]

theorem everyIn_iff {p : TagTest} {cs : List Content} :
    Content.everyIn p cs = true ↔ ∀ c ∈ cs, c.every p = true := by
  induction cs with
  | nil => exact iff_of_true rfl fun _ h => nomatch h
  | cons c rest ih => rw [everyIn_cons, ih, List.forall_mem_cons]

theorem every_element {p : TagTest} {name : String} {attributes : List (String × String)}
    {children : List Content} :
    (Content.element name attributes children).every p = true
      ↔ p name attributes = true ∧ Content.everyIn p children = true := by
  rw [Content.every, Bool.and_eq_true]

theorem validAttributes_iff {name : String} {attributes : List (String × String)} :
    validAttributes name attributes = true ↔ ∀ a ∈ attributes, isValidName a.1 = true := by
  rw [validAttributes, List.all_eq_true]

theorem Node.every_named {p : TagTest} {name : String} (h : p name [] = true) :
    (Node.named name).every p = true :=
  every_element.mpr ⟨h, rfl⟩

theorem Node.every_push {p : TagTest} {n : Node} {c : Content} :
    (n.push c).every p = true ↔ n.every p = true ∧ c.every p = true := by
  rw [every, every, toContent, toContent, every_element, every_element, push, everyIn_iff,
    everyIn_iff, List.forall_mem_append, List.forall_mem_singleton, and_assoc]

mutual

/-- A child in front keeps the property. -/
theorem consInduction {P : List Content → Prop} (nil : P [])
    (text : ∀ s rest, P rest → P (.text s :: rest))
    (cdata : ∀ s rest, P rest → P (.cdata s :: rest))
    (element : ∀ name attributes children rest, P children → P rest →
      P (.element name attributes children :: rest)) :
    ∀ (c : Content) (rest : List Content), P rest → P (c :: rest)
  | .text s, rest, h => text s rest h
  | .cdata s, rest, h => cdata s rest h
  | .element name attributes children, rest, h =>
    element name attributes children rest (childrenInduction nil text cdata element children) h

/-- Induction on children and the children of those among them that are elements. -/
theorem childrenInduction {P : List Content → Prop} (nil : P [])
    (text : ∀ s rest, P rest → P (.text s :: rest))
    (cdata : ∀ s rest, P rest → P (.cdata s :: rest))
    (element : ∀ name attributes children rest, P children → P rest →
      P (.element name attributes children :: rest)) :
    ∀ cs : List Content, P cs
  | [] => nil
  | c :: rest =>
    consInduction nil text cdata element c rest (childrenInduction nil text cdata element rest)

end

section Tests

variable {p q : TagTest}

theorem everyIn_mono
    (h : ∀ name attributes, p name attributes = true → q name attributes = true)
    (cs : List Content) : Content.everyIn p cs = true → Content.everyIn q cs = true := by
  induction cs using childrenInduction with
  | nil => exact fun hcs => hcs
  | text s cs ih => exact fun hcs => everyIn_cons.mpr ⟨rfl, ih (everyIn_cons.mp hcs).2⟩
  | cdata s cs ih => exact fun hcs => everyIn_cons.mpr ⟨rfl, ih (everyIn_cons.mp hcs).2⟩
  | element name attributes children cs ihchildren ih =>
    intro hall
    obtain ⟨helement, hcs⟩ := everyIn_cons.mp hall
    obtain ⟨htag, hchildren⟩ := every_element.mp helement
    exact everyIn_cons.mpr ⟨every_element.mpr ⟨h _ _ htag, ihchildren hchildren⟩, ih hcs⟩

/-- What passes a test passes one that asks for less. -/
theorem Node.every_mono
    (h : ∀ name attributes, p name attributes = true → q name attributes = true) {n : Node}
    (hn : n.every p = true) : n.every q = true := by
  have hall := everyIn_mono h [n.toContent] (everyIn_cons.mpr ⟨hn, rfl⟩)
  exact (everyIn_cons.mp hall).1

theorem everyIn_and (cs : List Content) :
    Content.everyIn p cs = true → Content.everyIn q cs = true →
      Content.everyIn (fun name attributes => p name attributes && q name attributes) cs
        = true := by
  induction cs using childrenInduction with
  | nil => exact fun hp _ => hp
  | text s cs ih =>
    exact fun hp hq => everyIn_cons.mpr ⟨rfl, ih (everyIn_cons.mp hp).2 (everyIn_cons.mp hq).2⟩
  | cdata s cs ih =>
    exact fun hp hq => everyIn_cons.mpr ⟨rfl, ih (everyIn_cons.mp hp).2 (everyIn_cons.mp hq).2⟩
  | element name attributes children cs ihchildren ih =>
    intro hp hq
    obtain ⟨hpelement, hpcs⟩ := everyIn_cons.mp hp
    obtain ⟨hqelement, hqcs⟩ := everyIn_cons.mp hq
    obtain ⟨hptag, hpchildren⟩ := every_element.mp hpelement
    obtain ⟨hqtag, hqchildren⟩ := every_element.mp hqelement
    have htag : (p name attributes && q name attributes) = true := by rw [hptag, hqtag]; rfl
    exact everyIn_cons.mpr ⟨every_element.mpr ⟨htag, ihchildren hpchildren hqchildren⟩,
      ih hpcs hqcs⟩

/-- Two tests that are passed are passed together. -/
theorem Node.every_and {n : Node} (hp : n.every p = true) (hq : n.every q = true) :
    n.every (fun name attributes => p name attributes && q name attributes) = true := by
  have hall := everyIn_and [n.toContent] (everyIn_cons.mpr ⟨hp, rfl⟩) (everyIn_cons.mpr ⟨hq, rfl⟩)
  exact (everyIn_cons.mp hall).1

theorem Node.toContent_mem_children {n m : Node} (h : m ∈ n.elements) :
    m.toContent ∈ n.children := by
  obtain ⟨c, hc, hm⟩ := List.mem_filterMap.mp h
  cases c with
  | element name attributes children =>
    cases hm
    exact hc
  | text s => cases hm
  | cdata s => cases hm

/-- What passes a test passes it in the elements inside. -/
theorem Node.every_of_mem_elements {n m : Node} (hn : n.every p = true) (hm : m ∈ n.elements) :
    m.every p = true :=
  everyIn_iff.mp (every_element.mp hn).2 _ (toContent_mem_children hm)

end Tests

end EventWire.Xml

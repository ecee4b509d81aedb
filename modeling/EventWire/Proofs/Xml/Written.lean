import EventWire.Proofs.Except
import EventWire.Proofs.Xml.Tree
import EventWire.Xml.Printer

/-!
# What is written for a tree

The text of an element is put together from its tag and the text of its children
(`elementText`), and the only thing that can go wrong is a name: a tree is written
exactly when the names of all its elements are valid (`isOk_writeDocument`), and
otherwise a name that is not is to blame (`writeDocument_eq_error`).
-/

namespace EventWire.Xml

/-- The text of an element, by that of its children. -/
def elementText (name : String) (attributes : List (String × String)) (children : List Content)
    (inner : List Char) : List Char :=
  if children.isEmpty then '<' :: tagText name attributes ++ ['/', '>']
  else '<' :: tagText name attributes ++ '>' :: inner ++ '<' :: '/' :: name.toList ++ ['>']

theorem childrenText_cons (c : Content) (cs : List Content) :
    childrenText (c :: cs)
      = contentText c >>= fun first => (childrenText cs).map fun later => first ++ later := by
  rw [childrenText]
  cases contentText c with
  | error e => rfl
  | ok first =>
    cases childrenText cs with
    | error e => rfl
    | ok later => rfl

/-- An element is written only under a valid name. -/
theorem contentText_element (name : String) (attributes : List (String × String))
    (children : List Content) :
    contentText (.element name attributes children)
      = if isValidName name then
          (childrenText children).map (elementText name attributes children)
        else .error (.invalidName name) := by
  cases children with
  | nil => rw [contentText, childrenText]; rfl
  | cons c cs =>
    rw [contentText, childrenText_cons]
    split
    · cases contentText c with
      | error e => rfl
      | ok first =>
        cases childrenText cs with
        | error e => rfl
        | ok later =>
          show Except.ok _ = Except.ok (elementText name attributes (c :: cs) (first ++ later))
          rw [elementText, List.isEmpty_cons, if_neg Bool.false_ne_true]
          simp only [List.append_assoc, List.cons_append]
    · rfl

theorem childrenText_cons_eq_ok {c : Content} {cs : List Content} {text : List Char}
    (h : childrenText (c :: cs) = .ok text) :
    ∃ first later, contentText c = .ok first ∧ childrenText cs = .ok later ∧
      text = first ++ later := by
  rw [childrenText_cons] at h
  obtain ⟨first, hfirst, hrest⟩ := bind_eq_ok.mp h
  obtain ⟨later, hlater, rfl⟩ := map_eq_ok.mp hrest
  exact ⟨first, later, hfirst, hlater, rfl⟩

theorem contentText_element_eq_ok {name : String} {attributes : List (String × String)}
    {children : List Content} {text : List Char}
    (h : contentText (.element name attributes children) = .ok text) :
    isValidName name = true ∧ ∃ inner, childrenText children = .ok inner ∧
      text = elementText name attributes children inner := by
  rw [contentText_element] at h
  split at h
  · next hname =>
    obtain ⟨inner, hinner, rfl⟩ := map_eq_ok.mp h
    exact ⟨hname, inner, hinner, rfl⟩
  · cases h

/-- **Children are written exactly when the names of all elements are valid.** -/
theorem isOk_childrenText (cs : List Content) :
    (childrenText cs).isOk = Content.everyIn validName cs := by
  induction cs using childrenInduction with
  | nil => rw [childrenText]; rfl
  | text s cs ih =>
    rw [childrenText_cons, contentText, ok_bind, isOk_map, ih, Content.everyIn, Content.every,
      Bool.true_and]
  | cdata s cs ih =>
    rw [childrenText_cons, contentText, ok_bind, isOk_map, ih, Content.everyIn, Content.every,
      Bool.true_and]
  | element name attributes children cs ihchildren ih =>
    rw [childrenText_cons, contentText_element, Content.everyIn, Content.every, validName, ← ih,
      ← ihchildren]
    cases isValidName name with
    | false => rfl
    | true =>
      rw [if_pos rfl, Bool.true_and]
      cases childrenText children with
      | error e => rfl
      | ok inner => exact isOk_map (childrenText cs) _

theorem isOk_writeDocument (n : Node) (encoding : Option String) :
    (writeDocument n encoding).isOk = n.every validName := by
  have hcontent : (contentText n.toContent).isOk = n.every validName := by
    rw [Node.toContent, contentText_element, Node.every, Node.toContent, Content.every, validName,
      ← isOk_childrenText]
    cases isValidName n.name with
    | false => rfl
    | true => exact isOk_map (childrenText n.children) _
  rw [← hcontent, writeDocument]
  cases contentText n.toContent with
  | error e => rfl
  | ok cs => rfl

/-- **An element is written exactly if all names in it are valid.** -/
theorem Node.exists_write_iff {n : Node} : (∃ s, n.write = .ok s) ↔ n.every validName = true := by
  have hok : n.write.isOk = n.every validName := isOk_writeDocument n none
  rw [← hok]
  constructor
  · rintro ⟨s, hs⟩
    rw [hs]
    rfl
  · exact exists_ok_of_isOk

/-! ## Names to blame -/

mutual

/-- The names of the elements of a child, in document order. -/
def Content.names : Content → List String
  | .element name _ children => name :: namesIn children
  | .text _ => []
  | .cdata _ => []

/-- The names of the elements of children, in document order. -/
def Content.namesIn : List Content → List String
  | [] => []
  | c :: rest => c.names ++ namesIn rest

end

/-- The names of an element and of all elements in it, in document order. -/
def Node.names (n : Node) : List String :=
  n.toContent.names

theorem everyIn_validName_iff (cs : List Content) :
    Content.everyIn validName cs = true ↔ ∀ name ∈ Content.namesIn cs, isValidName name = true := by
  induction cs using childrenInduction with
  | nil => exact iff_of_true rfl fun _ h => nomatch h
  | text s cs ih => rw [everyIn_cons, ih, Content.namesIn, Content.names]; simp [Content.every]
  | cdata s cs ih => rw [everyIn_cons, ih, Content.namesIn, Content.names]; simp [Content.every]
  | element name attributes children cs ihchildren ih =>
    rw [everyIn_cons, every_element, ihchildren, ih, Content.namesIn, Content.names,
      List.forall_mem_append, List.forall_mem_cons]
    rfl

theorem Node.every_validName_iff {n : Node} :
    n.every validName = true ↔ ∀ name ∈ n.names, isValidName name = true := by
  rw [Node.every, Node.toContent, every_element, everyIn_validName_iff, Node.names, Node.toContent,
    Content.names, List.forall_mem_cons]
  rfl

/-- A name that cannot be written is the only fault. -/
theorem childrenText_eq_error (cs : List Content) :
    ∀ {e : XmlError}, childrenText cs = .error e →
      ∃ name ∈ Content.namesIn cs, isValidName name = false ∧ e = .invalidName name := by
  induction cs using childrenInduction with
  | nil =>
    intro e h
    rw [childrenText] at h
    cases h
  | text s cs ih =>
    intro e h
    rw [childrenText_cons, contentText, ok_bind] at h
    exact ih (map_eq_error.mp h)
  | cdata s cs ih =>
    intro e h
    rw [childrenText_cons, contentText, ok_bind] at h
    exact ih (map_eq_error.mp h)
  | element name attributes children cs ihchildren ih =>
    intro e h
    rw [childrenText_cons, contentText_element] at h
    rw [Content.namesIn, Content.names]
    split at h
    · cases hchildren : childrenText children with
      | error e' =>
        rw [hchildren] at h
        cases h
        obtain ⟨bad, hmem, hbad⟩ := ihchildren hchildren
        exact ⟨bad, List.mem_append_left _ (List.mem_cons_of_mem _ hmem), hbad⟩
      | ok inner =>
        rw [hchildren] at h
        obtain ⟨bad, hmem, hbad⟩ := ih (map_eq_error.mp h)
        exact ⟨bad, List.mem_append_right _ hmem, hbad⟩
    · next hname =>
      cases h
      exact ⟨name, List.mem_append_left _ (List.mem_cons_self ..), Bool.eq_false_iff.mpr hname, rfl⟩

theorem writeDocument_eq_error {n : Node} {encoding : Option String} {e : XmlError}
    (h : writeDocument n encoding = .error e) :
    ∃ name ∈ n.names, isValidName name = false ∧ e = .invalidName name := by
  -- An element is a list of children of its own.
  have hcontent : childrenText [n.toContent] = .error e := by
    unfold writeDocument at h
    rw [childrenText_cons]
    split at h
    · cases h
    · next hfault =>
      cases h
      rw [hfault]
      rfl
  have hnames : Content.namesIn [n.toContent] = n.names := List.append_nil _
  rw [← hnames]
  exact childrenText_eq_error _ hcontent

/-- **A tree is not written exactly when a name in it is not valid**, and such a name is
what the error is about. -/
theorem writeDocument_eq_invalidName_iff (n : Node) (encoding : Option String) :
    (∃ name, writeDocument n encoding = .error (.invalidName name))
      ↔ ∃ name ∈ n.names, isValidName name = false := by
  constructor
  · rintro ⟨name, h⟩
    obtain ⟨bad, hmem, hbad, -⟩ := writeDocument_eq_error h
    exact ⟨bad, hmem, hbad⟩
  · rintro ⟨bad, hmem, hbad⟩
    cases h : writeDocument n encoding with
    | error e =>
      obtain ⟨name, -, -, rfl⟩ := writeDocument_eq_error h
      exact ⟨name, rfl⟩
    | ok s =>
      have hok := isOk_writeDocument n encoding
      rw [h] at hok
      have hall := Node.every_validName_iff.mp hok.symm
      rw [hall bad hmem] at hbad
      cases hbad

theorem exists_writeDocument {n : Node} (h : ∀ name ∈ n.names, isValidName name = true)
    (encoding : Option String) : ∃ s, writeDocument n encoding = .ok s :=
  exists_ok_of_isOk ((isOk_writeDocument n encoding).trans (Node.every_validName_iff.mpr h))

end EventWire.Xml

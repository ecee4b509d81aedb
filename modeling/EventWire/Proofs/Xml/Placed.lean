import EventWire.Proofs.Xml.Parts
import Mathlib.Data.List.Induction

/-!
# Parts in place and out of place

Whether a part has its place is said of the parts before it: of the names that are open
after them (`openNames`), and of whether an element at the top has come to its end
(`Somewhere Finishes`). A second element at the top is out of place when it comes to its end,
and so are text and CDATA outside of all elements (`Stray`).

A builder keeps just that: its stack has the names that are open, and it has a root if an
element at the top is done (`Builder.Stands`). So it takes a part in unless it is out of place
(`Stands.takes`), and all of them unless one is (`takeAll_stands`), if only the ends are those
of what is open.
-/

namespace EventWire.Xml

/-- Some part stands in a relation to those before it. -/
def Somewhere (R : List Part → Part → Prop) (ps : List Part) : Prop :=
  ∃ before p after, ps = before ++ p :: after ∧ R before p

/-- The names of the elements that are open after a part, innermost first. -/
def Part.namesAfter (names : List String) : Part → List String
  | .opening name _ => name :: names
  | .closing _ => names.tail
  | .text _ => names
  | .cdata _ => names

/-- The names of the elements that are open after parts, innermost first. -/
def openNames (ps : List Part) : List String :=
  ps.foldl Part.namesAfter []

/-- The end of an element at the top. -/
inductive Finishes (before : List Part) : Part → Prop where
  | closing {name outermost : String} (h : openNames before = [outermost]) :
      Finishes before (.closing name)

/-- What has no place in a document: a second element at the top, once it comes to its end,
and text or CDATA outside of all elements. -/
inductive Stray (before : List Part) : Part → Prop where
  | second {p : Part} (h : Finishes before p) (hdone : Somewhere Finishes before) :
      Stray before p
  | text {s : String} (h : openNames before = []) : Stray before (.text s)
  | cdata {s : String} (h : openNames before = []) : Stray before (.cdata s)

/-- An end that is not that of the innermost open element. -/
inductive Misplaced (before : List Part) : Part → Prop where
  | closing {name : String} (h : (openNames before).head? ≠ some name) :
      Misplaced before (.closing name)

section Parts

variable {R : List Part → Part → Prop} {ps : List Part} {p : Part}

theorem not_somewhere_nil : ¬ Somewhere R [] := by
  rintro ⟨before, p, after, h, -⟩
  exact List.append_ne_nil_of_right_ne_nil before (List.cons_ne_nil p after) h.symm

theorem somewhere_concat : Somewhere R (ps ++ [p]) ↔ Somewhere R ps ∨ R ps p := by
  constructor
  · rintro ⟨before, q, after, h, hR⟩
    -- The part is the last one, or the last one is among those after it.
    rcases List.eq_nil_or_concat after with rfl | ⟨more, last, rfl⟩
    · obtain ⟨rfl, hq⟩ := List.append_inj' h rfl
      cases hq
      exact Or.inr hR
    · rw [List.concat_eq_append, ← List.cons_append, ← List.append_assoc] at h
      obtain ⟨rfl, -⟩ := List.append_inj' h rfl
      exact Or.inl ⟨before, q, more, rfl, hR⟩
  · rintro (⟨before, q, after, rfl, hR⟩ | hR)
    · exact ⟨before, q, after ++ [p], by rw [List.append_assoc, List.cons_append], hR⟩
    · exact ⟨ps, p, [], rfl, hR⟩

theorem openNames_concat : openNames (ps ++ [p]) = p.namesAfter (openNames ps) := by
  rw [openNames, List.foldl_append]
  rfl

end Parts

/-! ## Builders after parts -/

namespace Builder

/-- A builder that knows which parts would have their place after some others. -/
structure Stands (b : Builder) (ps : List Part) : Prop where
  names : b.stack.map (·.name) = openNames ps
  root : b.root.isSome = true ↔ Somewhere Finishes ps

/-- How a builder takes a part in after some others: not at all if it is out of place. -/
inductive Takes (b : Builder) (ps : List Part) (p : Part) : Prop where
  | refused (hstray : Stray ps p) (h : b.take keepCdata p = .error .multipleRoots)
  | taken {b' : Builder} (hplaced : ¬ Stray ps p) (h : b.take keepCdata p = .ok b')
      (hstands : Stands b' (ps ++ [p]))

section Steps

variable {b b' : Builder} {ps : List Part} {p : Part}

theorem stands_initial : Stands initial [] where
  names := rfl
  root := iff_of_false nofun not_somewhere_nil

theorem Stands.concat (h : Stands b ps)
    (hnames : b'.stack.map (·.name) = p.namesAfter (b.stack.map (·.name)))
    (hroot : b'.root.isSome = true ↔ b.root.isSome = true ∨ Finishes ps p) :
    Stands b' (ps ++ [p]) where
  names := by rw [hnames, h.names, openNames_concat]
  root := by rw [hroot, h.root, somewhere_concat]

/-- What is put into an element has its place if there is one. -/
theorem Stands.addContent (h : Stands b ps) {c : Content}
    (hp : b.take keepCdata p = b.addContent (c :: ·)) (hafter : ∀ names, p.namesAfter names = names)
    (hstray : Stray ps p ↔ openNames ps = []) (hfinishes : ¬ Finishes ps p) : b.Takes ps p := by
  rw [← h.names] at hstray
  cases hstack : b.stack with
  | nil =>
    refine .refused (hstray.mpr (congrArg _ hstack)) ?_
    rw [hp, Builder.addContent, hstack]
  | cons parent outer =>
    have htake : b.take keepCdata p
        = .ok { b with stack := { parent with done := c :: parent.done } :: outer } := by
      rw [hp, Builder.addContent, hstack]
    refine .taken ?_ htake (h.concat ?_ ?_)
    · rw [hstray, hstack]
      exact List.cons_ne_nil _ _
    · rw [hafter, hstack]
      rfl
    · exact ⟨Or.inl, fun hor => hor.resolve_right hfinishes⟩

/-- The end of the innermost element has its place unless it is a second one at the top. -/
theorem Stands.closing (h : Stands b ps) {e : OpenElement} {outer : List OpenElement}
    (hstack : b.stack = e :: outer) : b.Takes ps (.closing e.name) := by
  have htake : b.take keepCdata (.closing e.name)
      = attach { b with stack := outer } e.toNode := by
    rw [Builder.take, hstack]
    exact if_pos rfl
  have hnames : openNames ps = e.name :: outer.map (·.name) := by
    rw [← h.names, hstack, List.map_cons]
  cases outer with
  | nil =>
    -- The element is at the top, and becomes the root if there is none.
    have hfinishes : Finishes ps (.closing e.name) := .closing hnames
    cases hroot : b.root with
    | none =>
      have hdone : b.take keepCdata (.closing e.name)
          = .ok { b with stack := [], root := some e.toNode } := by
        rw [htake, attach, hroot]
        rfl
      refine .taken ?_ hdone (h.concat ?_ ?_)
      · rintro ⟨-, hbefore⟩
        rw [← h.root, hroot] at hbefore
        cases hbefore
      · rw [hstack]
        rfl
      · exact iff_of_true rfl (Or.inr hfinishes)
    | some n =>
      refine .refused (.second hfinishes (h.root.mp (hroot ▸ rfl))) ?_
      rw [htake, attach, hroot]
      rfl
  | cons parent more =>
    -- The element goes into its parent, whatever was at the top before.
    have hinner : ¬ Finishes ps (.closing e.name) := by
      rintro ⟨hone⟩
      rw [hnames] at hone
      cases hone
    have hdone : b.take keepCdata (.closing e.name) = .ok { b with
        stack := { parent with done := e.toNode.toContent :: parent.done } :: more } := by
      rw [htake, attach]
    refine .taken ?_ hdone (h.concat ?_ ?_)
    · rintro ⟨hfinishes, -⟩
      exact hinner hfinishes
    · rw [hstack]
      rfl
    · exact ⟨Or.inl, fun hor => hor.resolve_right hinner⟩

/-- **A part is taken in unless it is out of place.** -/
theorem Stands.takes (h : Stands b ps) (hfit : ¬ Misplaced ps p) : b.Takes ps p := by
  cases p with
  | opening name attributes =>
    refine .taken ?_ rfl (h.concat rfl ?_)
    · rintro (⟨⟨⟩, -⟩)
    · exact ⟨Or.inl, fun hor => hor.resolve_right nofun⟩
  | closing name =>
    have hhead : (openNames ps).head? = some name := by
      by_contra hne
      exact hfit (.closing hne)
    rw [← h.names, List.head?_map, Option.map_eq_some_iff] at hhead
    obtain ⟨e, he, rfl⟩ := hhead
    obtain ⟨outer, hstack⟩ := List.head?_eq_some_iff.mp he
    exact h.closing hstack
  | text s =>
    refine h.addContent (c := .text s) rfl (fun _ => rfl) ⟨?_, .text⟩ nofun
    rintro (⟨⟨⟩, -⟩ | hempty)
    exact hempty
  | cdata s =>
    refine h.addContent (c := .cdata s) rfl (fun _ => rfl) ⟨?_, .cdata⟩ nofun
    rintro (⟨⟨⟩, -⟩ | hempty | hempty)
    exact hempty

/-- **Parts are taken in unless one is out of place.** -/
theorem takeAll_stands (ps : List Part) (hfit : ¬ Somewhere Misplaced ps) :
    Somewhere Stray ps ∧ initial.takeAll keepCdata ps = .error .multipleRoots ∨
      ¬ Somewhere Stray ps ∧ ∃ b, initial.takeAll keepCdata ps = .ok b ∧ Stands b ps := by
  induction ps using List.reverseRecOn with
  | nil => exact Or.inr ⟨not_somewhere_nil, initial, rfl, stands_initial⟩
  | append_singleton ps p ih =>
    rw [somewhere_concat, not_or] at hfit
    obtain ⟨hbefore, hp⟩ := hfit
    rw [somewhere_concat, takeAll_append]
    rcases ih hbefore with ⟨hstray, herror⟩ | ⟨hplaced, b, hb, hstands⟩
    · rw [herror]
      exact Or.inl ⟨Or.inl hstray, rfl⟩
    · rw [hb, ok_bind, takeAll_cons]
      cases hstands.takes hp with
      | refused hstray herror =>
        rw [herror]
        exact Or.inl ⟨Or.inr hstray, rfl⟩
      | @taken b' hnot hb' hstands' =>
        rw [hb']
        exact Or.inr ⟨not_or.mpr ⟨hplaced, hnot⟩, b', rfl, hstands'⟩

end Steps

end Builder

end EventWire.Xml

import EventWire.Proofs.Xml.Reader
import Mathlib.Data.List.Nodup

/-!
# No attribute comes twice

Trees come about in two ways. They are built with `Node.named`, `Node.setAttribute`
and `Node.push`, where setting an attribute replaces the one that is there, or they
are read, where a name that comes again ends the reading. Either way no element has an
attribute twice: each way to build keeps it so (`every_push`,
`distinct_setAttribute`), and the attributes that are read from a tag are distinct
(`nodup_attributesOf`), so it holds of all that is read (`distinct_of_parse`).
-/

namespace EventWire.Xml

/-! ## Trees that are built -/

namespace Node

/-- The names stay what they are, and a new name comes last. -/
theorem names_setIn (name value : String) (attributes : List (String × String)) :
    (setIn name value attributes).map (·.1)
      = if name ∈ attributes.map (·.1) then attributes.map (·.1)
        else attributes.map (·.1) ++ [name] := by
  induction attributes with
  | nil => rfl
  | cons a rest ih =>
    rw [setIn, List.map_cons]
    by_cases hname : a.1 = name
    · rw [if_pos hname, if_pos (List.mem_cons.mpr (Or.inl hname.symm)), List.map_cons]
    · rw [if_neg hname, List.map_cons, ih]
      by_cases hrest : name ∈ rest.map (·.1)
      · rw [if_pos hrest, if_pos (List.mem_cons_of_mem _ hrest)]
      · have hnew : name ∉ a.1 :: rest.map (·.1) := fun hmem =>
          (List.mem_cons.mp hmem).elim (fun e => hname e.symm) hrest
        rw [if_neg hrest, if_neg hnew, List.cons_append]

theorem nodup_setIn {attributes : List (String × String)} (h : (attributes.map (·.1)).Nodup)
    (name value : String) : ((setIn name value attributes).map (·.1)).Nodup := by
  rw [names_setIn]
  split
  · exact h
  · next hnew =>
    rw [← List.concat_eq_append]
    exact List.Nodup.concat hnew h

/-- **Setting an attribute leaves every attribute one of its kind.** -/
theorem distinct_setAttribute {n : Node} (h : n.every distinctAttributes = true)
    (name value : String) : (n.setAttribute name value).every distinctAttributes = true := by
  obtain ⟨hnodup, hchildren⟩ := every_element.mp h
  exact every_element.mpr
    ⟨decide_eq_true (nodup_setIn (of_decide_eq_true hnodup) name value), hchildren⟩

end Node

/-! ## Trees that are read -/

namespace Builder

theorem nodup_readAttributes {broken : Bool} {raw : List (List Char × List Char)} :
    ∀ {before attributes : List (String × String)}, (before.map (·.1)).Nodup →
      readAttributes broken before raw = .ok attributes → (attributes.map (·.1)).Nodup := by
  induction raw with
  | nil =>
    intro before attributes hbefore h
    rw [readAttributes] at h
    split at h
    · cases h
    · cases h
      exact hbefore
  | cons a rest ih =>
    intro before attributes hbefore h
    rw [readAttributes] at h
    split at h
    · cases h
    · next hfresh =>
      split at h
      · cases h
      · refine ih ?_ h
        -- The name is none of those before, or reading would have ended here.
        rw [List.map_append, List.map_singleton, ← List.concat_eq_append]
        refine List.Nodup.concat (fun hmem => ?_) hbefore
        obtain ⟨b, hb, hsame⟩ := List.mem_map.mp hmem
        exact hfresh (List.any_eq_true.mpr ⟨b, hb, decide_eq_true hsame⟩)

theorem nodup_attributesOf {cs : List Char} {attributes : List (String × String)}
    (h : attributesOf cs = .ok attributes) : (attributes.map (·.1)).Nodup :=
  @nodup_readAttributes _ _ [] _ List.nodup_nil h

end Builder

/-- **Whatever is read has no attribute twice.** -/
theorem Node.distinct_of_parse {s : String} {n : Node} (h : Node.parse s = .ok n) :
    n.every distinctAttributes = true :=
  Node.every_of_parse (fun hread _ => decide_eq_true (Builder.nodup_attributesOf hread)) h

end EventWire.Xml

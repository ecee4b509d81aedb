import EventWire.Xml.Escape
import EventWire.Xml.Printer

/-!
# Escaped text and CDATA

Escaped text has no brackets and no quotes in it (`not_mem_escape`) and is read as
what it was written for (`unescape?_escape`).

A CDATA text is cut into chunks that give the text again when they are put together
(`append_flatten_cdataChunks`). In none of them stands the end mark, nor does one
come about where the end mark follows a chunk, so the first end mark that a reader
finds is the one that was written behind the chunk (`cutAfter_cdataChunk`).
-/

namespace EventWire.Xml

/-! ## Escapes -/

theorem escape_append (as bs : List Char) : escape (as ++ bs) = escape as ++ escape bs :=
  List.flatMap_append

theorem escape_cons (c : Char) (cs : List Char) : escape (c :: cs) = escapeChar c ++ escape cs :=
  List.flatMap_cons

theorem escapeChar_eq_self {c : Char} (hlt : c ≠ '<') (hgt : c ≠ '>') (hand : c ≠ '&')
    (happ : c ≠ '\'') (hquote : c ≠ '"') : escapeChar c = [c] := by
  rw [escapeChar]
  · exact hlt
  · exact hgt
  · exact hand
  · exact happ
  · exact hquote

/-- A character is one of the five with an entity, or stands for itself. -/
theorem escapeChar_cases (c : Char) :
    (c = '<' ∨ c = '>' ∨ c = '&' ∨ c = '\'' ∨ c = '"') ∨ (escapeChar c = [c] ∧ c ≠ '&') := by
  by_cases h : c = '<' ∨ c = '>' ∨ c = '&' ∨ c = '\'' ∨ c = '"'
  · exact Or.inl h
  · simp only [not_or] at h
    exact Or.inr ⟨escapeChar_eq_self h.1 h.2.1 h.2.2.1 h.2.2.2.1 h.2.2.2.2, h.2.2.1⟩

theorem escapeChar_ne_nil (c : Char) : escapeChar c ≠ [] := by
  rcases escapeChar_cases c with (rfl | rfl | rfl | rfl | rfl) | ⟨h, -⟩
  · decide
  · decide
  · decide
  · decide
  · decide
  · rw [h]
    exact List.cons_ne_nil _ _

theorem escape_ne_nil {cs : List Char} (h : cs ≠ []) : escape cs ≠ [] := by
  obtain ⟨c, rest, rfl⟩ := List.exists_cons_of_ne_nil h
  rw [escape_cons]
  exact fun e => escapeChar_ne_nil c (List.append_eq_nil_iff.mp e).1

/-- Brackets and quotes are never written as they are. -/
theorem not_mem_escape {x : Char} (hx : x = '<' ∨ x = '>' ∨ x = '"' ∨ x = '\'') (cs : List Char) :
    x ∉ escape cs := by
  intro hmem
  obtain ⟨c, -, hc⟩ := List.mem_flatMap.mp hmem
  rcases escapeChar_cases c with (rfl | rfl | rfl | rfl | rfl) | ⟨h, hand⟩
  · revert hc; rcases hx with rfl | rfl | rfl | rfl <;> decide
  · revert hc; rcases hx with rfl | rfl | rfl | rfl <;> decide
  · revert hc; rcases hx with rfl | rfl | rfl | rfl <;> decide
  · revert hc; rcases hx with rfl | rfl | rfl | rfl <;> decide
  · revert hc; rcases hx with rfl | rfl | rfl | rfl <;> decide
  · rw [h, List.mem_singleton] at hc
    subst hc
    revert h
    rcases hx with rfl | rfl | rfl | rfl <;> decide

/-- Reading goes on behind what one character was written as. -/
theorem unescapeFrom_escapeChar (c : Char) (rest : List Char) :
    unescapeFrom none (escapeChar c ++ rest) = (unescapeFrom none rest).map (c :: ·) := by
  rcases escapeChar_cases c with (rfl | rfl | rfl | rfl | rfl) | ⟨h, hand⟩
  · rfl
  · rfl
  · rfl
  · rfl
  · rfl
  · rw [h, List.cons_append, List.nil_append, unescapeFrom, if_neg hand]

/-- **Escaped text is read as what it was written for.** -/
theorem unescape?_escape (cs : List Char) : unescape? (escape cs) = some cs := by
  unfold unescape?
  induction cs with
  | nil => rfl
  | cons c rest ih =>
    rw [escape_cons, unescapeFrom_escapeChar, ih]
    rfl

/-! ## CDATA -/

/-- The end mark of a CDATA section. -/
def cdataEnd : List Char := [']', ']', '>']

/-- The chunks put together are the text. -/
theorem append_flatten_cdataChunks (cs : List Char) :
    (cdataChunks cs).1 ++ (cdataChunks cs).2.flatten = cs := by
  induction cs using cdataChunks.induct with
  | case1 => rw [cdataChunks]; rfl
  | case2 rest _ _ _ ih =>
    rw [cdataChunks, List.flatten_cons, ih]
    rfl
  | case3 c rest hmark _ _ _ ih =>
    rw [cdataChunks]
    · rw [List.cons_append, ih]
    · exact hmark

theorem cutAfter_cons_of_not_prefix {mark : List Char} {c : Char} {rest : List Char}
    (h : mark.isPrefixOf (c :: rest) = false) :
    cutAfter mark (c :: rest)
      = (cutAfter mark rest).map fun (before, after) => (c :: before, after) := by
  rw [cutAfter, if_neg (by rw [h]; decide)]

/-- No end mark begins at a character that stands before a chunk of what follows it,
unless one began there in the text. -/
theorem not_cdataEnd_prefix {c : Char} {rest chunk tail : List Char}
    (hchunk : chunk ++ tail = rest) (hmark : ∀ more, c = ']' → rest = ']' :: '>' :: more → False)
    (after : List Char) : cdataEnd.isPrefixOf (c :: (chunk ++ cdataEnd ++ after)) = false := by
  match chunk, hchunk with
  -- The end mark behind a short chunk has a bracket where `>` would have to stand.
  | [], _ =>
    simp [cdataEnd, List.isPrefixOf]
  | [x], _ =>
    simp [cdataEnd, List.isPrefixOf]
  -- A longer chunk holds all that would be the mark, and so did the text.
  | x :: y :: chunk, hchunk =>
    have hne : c = ']' → x = ']' → y ≠ '>' := by
      rintro rfl rfl rfl
      exact hmark (chunk ++ tail) rfl hchunk.symm
    simp only [cdataEnd, List.cons_append, List.isPrefixOf, Bool.and_eq_false_iff,
      beq_eq_false_iff_ne]
    by_cases hc : c = ']'
    · by_cases hx : x = ']'
      · exact Or.inr (Or.inr (Or.inl (hne hc hx).symm))
      · exact Or.inr (Or.inl (Ne.symm hx))
    · exact Or.inl (Ne.symm hc)

/-- A section that begins with a chunk ends with that chunk. -/
theorem cutAfter_cdataChunk (cs : List Char) :
    ∀ chunk ∈ (cdataChunks cs).1 :: (cdataChunks cs).2, ∀ after,
      cutAfter cdataEnd (chunk ++ cdataEnd ++ after) = some (chunk, after) := by
  induction cs using cdataChunks.induct with
  | case1 =>
    intro chunk hmem after
    rw [cdataChunks, List.mem_singleton] at hmem
    subst hmem
    rfl
  | case2 rest _ _ _ ih =>
    intro chunk hmem after
    rw [cdataChunks] at hmem
    rcases List.mem_cons.mp hmem with rfl | hlater
    · rfl
    · exact ih chunk hlater after
  | case3 c rest hmark _ _ _ ih =>
    intro chunk hmem after
    rw [cdataChunks] at hmem
    · rcases List.mem_cons.mp hmem with rfl | hlater
      · have hfirst := ih _ (List.mem_cons_self ..) after
        have hno := not_cdataEnd_prefix (append_flatten_cdataChunks rest) hmark after
        rw [List.cons_append, List.cons_append, cutAfter_cons_of_not_prefix hno, hfirst]
        rfl
      · exact ih chunk (List.mem_cons_of_mem _ hlater) after
    · exact hmark

end EventWire.Xml

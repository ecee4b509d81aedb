import EventWire.Proofs.Utf8
import EventWire.Proofs.Xml.Lexing
import EventWire.Proofs.Xml.Written

/-!
# CDATA in sections

A CDATA text is cut in each end mark that stands in it, and nowhere else (`cutBehind_iff`). End
marks do not overlap, and what follows a cut begins with a `>`, so no cut makes or breaks another
mark: there is one chunk more than there are marks (`length_cdataParts`), and none of the chunks
holds one. In bytes, the cuts are two behind the places at which the bytes of the mark are found,
and a character begins at each of them (`cutAt_iff`).

`Sections` says what a scan for sections finds: each one ends with the first end mark behind its
start. A text has at most one reading of this kind (`Sections.unique`), and what is written for
CDATA children side by side is read as the chunks of all of them (`cdata_split`).
-/

namespace EventWire.Xml

open Text

/-- All chunks of a CDATA text, in order. -/
def cdataParts (cs : List Char) : List (List Char) :=
  (cdataChunks cs).1 :: (cdataChunks cs).2

/-- The number of places at which a mark stands in a text. -/
def occurrences (mark : List Char) : List Char → Nat
  | [] => if mark.isEmpty then 1 else 0
  | c :: rest => (if mark.isPrefixOf (c :: rest) then 1 else 0) + occurrences mark rest

/-! ## Cuts and end marks -/

theorem cdataParts_nil : cdataParts [] = [[]] := by
  rw [cdataParts, cdataChunks]

theorem cdataParts_mark (rest : List Char) :
    cdataParts (']' :: ']' :: '>' :: rest) = [']', ']'] :: cdataParts ('>' :: rest) := by
  rw [cdataParts, cdataChunks]
  rfl

/-- A character in front of a text goes to its first chunk, unless it begins an end mark. -/
theorem cdataParts_cons {c : Char} {rest : List Char}
    (hmark : ∀ more, c = ']' → rest = ']' :: '>' :: more → False) :
    ∃ chunk chunks, cdataParts rest = chunk :: chunks ∧
      cdataParts (c :: rest) = (c :: chunk) :: chunks := by
  refine ⟨_, _, rfl, ?_⟩
  rw [cdataParts, cdataChunks]
  exact hmark

/-- The text holds an end mark, and `p` is all of it up to the two brackets of that mark. -/
def Marked (cs p : List Char) : Prop :=
  ∃ before after, p = before ++ [']', ']'] ∧ cs = before ++ cdataEnd ++ after

theorem not_marked_nil (p : List Char) : ¬Marked [] p := by
  rintro ⟨before, after, -, h⟩
  cases before with
  | nil => cases h
  | cons c before => cases h

/-- An end mark stands at the beginning of a text or behind its first character. -/
theorem marked_cons_iff {c : Char} {rest p : List Char} :
    Marked (c :: rest) p ↔
      (p = [']', ']'] ∧ ∃ more, c = ']' ∧ rest = ']' :: '>' :: more) ∨
        ∃ q, p = c :: q ∧ Marked rest q := by
  constructor
  · rintro ⟨before, after, rfl, h⟩
    cases before with
    | nil =>
      obtain ⟨hc, hrest⟩ := List.cons.inj h
      exact Or.inl ⟨rfl, after, hc, hrest⟩
    | cons d before =>
      obtain ⟨rfl, hrest⟩ := List.cons.inj h
      exact Or.inr ⟨_, rfl, before, after, rfl, hrest⟩
  · rintro (⟨rfl, more, rfl, rfl⟩ | ⟨q, rfl, before, after, rfl, rfl⟩)
    · exact ⟨[], more, rfl, rfl⟩
    · exact ⟨c :: before, after, rfl, rfl⟩

/-- The parts of a text are cut behind `p`: the first of them make it up, and others follow. -/
def CutBehind (parts : List (List Char)) (p : List Char) : Prop :=
  ∃ front back, parts = front ++ back ∧ front ≠ [] ∧ back ≠ [] ∧ front.flatten = p

theorem not_cutBehind_singleton (part p : List Char) : ¬CutBehind [part] p := by
  rintro ⟨front, back, h, hfront, hback, -⟩
  rcases List.append_eq_singleton_iff.mp h.symm with ⟨hnil, -⟩ | ⟨-, hnil⟩
  · exact hfront hnil
  · exact hback hnil

/-- The first cut is behind the first part. -/
theorem cutBehind_cons_iff {part next p : List Char} {parts : List (List Char)} :
    CutBehind (part :: next :: parts) p ↔
      p = part ∨ ∃ q, p = part ++ q ∧ CutBehind (next :: parts) q := by
  constructor
  · rintro ⟨front, back, h, hfront, hback, rfl⟩
    obtain ⟨first, front, rfl⟩ := List.exists_cons_of_ne_nil hfront
    obtain ⟨rfl, hrest⟩ := List.cons.inj h
    by_cases hnil : front = []
    · exact Or.inl (by rw [hnil, List.flatten_singleton])
    · exact Or.inr ⟨_, List.flatten_cons, front, back, hrest, hnil, hback, rfl⟩
  · rintro (rfl | ⟨q, rfl, front, back, hrest, hfront, hback, rfl⟩)
    · exact ⟨[p], next :: parts, rfl, List.cons_ne_nil _ _, List.cons_ne_nil _ _,
        List.flatten_singleton⟩
    · exact ⟨part :: front, back, by rw [hrest, List.cons_append], List.cons_ne_nil _ _, hback,
        List.flatten_cons⟩

/-- A character that goes to the first part moves all cuts. -/
theorem cutBehind_extend_iff {c : Char} {part p : List Char} {parts : List (List Char)} :
    CutBehind ((c :: part) :: parts) p ↔ ∃ q, p = c :: q ∧ CutBehind (part :: parts) q := by
  cases parts with
  | nil =>
    refine iff_of_false (not_cutBehind_singleton _ _) ?_
    rintro ⟨q, -, h⟩
    exact not_cutBehind_singleton _ _ h
  | cons next parts =>
    rw [cutBehind_cons_iff]
    constructor
    · rintro (rfl | ⟨q, rfl, hq⟩)
      · exact ⟨part, rfl, cutBehind_cons_iff.mpr (Or.inl rfl)⟩
      · exact ⟨part ++ q, rfl, cutBehind_cons_iff.mpr (Or.inr ⟨q, rfl, hq⟩)⟩
    · rintro ⟨q, rfl, hq⟩
      rcases cutBehind_cons_iff.mp hq with rfl | ⟨r, rfl, hr⟩
      · exact Or.inl rfl
      · exact Or.inr ⟨r, rfl, hr⟩

/-- **A CDATA text is cut behind the brackets of each of its end marks**, and nowhere else. -/
theorem cutBehind_iff (cs : List Char) :
    ∀ {p : List Char}, CutBehind (cdataParts cs) p ↔ Marked cs p := by
  induction cs using cdataChunks.induct with
  | case1 =>
    intro p
    rw [cdataParts_nil]
    exact iff_of_false (not_cutBehind_singleton _ _) (not_marked_nil p)
  | case2 rest _ _ _ ih =>
    intro p
    have hparts : CutBehind (cdataParts (']' :: ']' :: '>' :: rest)) p ↔
        p = [']', ']'] ∨ ∃ q, p = [']', ']'] ++ q ∧ CutBehind (cdataParts ('>' :: rest)) q := by
      rw [cdataParts_mark]
      exact cutBehind_cons_iff
    rw [hparts]
    -- Marks do not overlap: none begins at the second bracket.
    have hsecond : ∀ {q}, Marked (']' :: '>' :: rest) q ↔
        ∃ r, q = ']' :: r ∧ Marked ('>' :: rest) r := by
      intro q
      rw [marked_cons_iff, or_iff_right]
      rintro ⟨-, more, -, hmore⟩
      exact absurd (List.cons.inj hmore).1 (by decide)
    rw [marked_cons_iff]
    constructor
    · rintro (rfl | ⟨q, rfl, hq⟩)
      · exact Or.inl ⟨rfl, rest, rfl, rfl⟩
      · exact Or.inr ⟨_, rfl, hsecond.mpr ⟨_, rfl, ih.mp hq⟩⟩
    · rintro (⟨rfl, -⟩ | ⟨q, rfl, hq⟩)
      · exact Or.inl rfl
      · obtain ⟨r, rfl, hr⟩ := hsecond.mp hq
        exact Or.inr ⟨r, rfl, ih.mpr hr⟩
  | case3 c rest hmark _ _ _ ih =>
    intro p
    obtain ⟨chunk, chunks, hrest, hcons⟩ := cdataParts_cons hmark
    rw [hcons, cutBehind_extend_iff, ← hrest, marked_cons_iff, or_iff_right]
    · exact exists_congr fun q => and_congr_right fun _ => ih
    · rintro ⟨-, more, hc, hmore⟩
      exact hmark more hc hmore

theorem isPrefixOf_cdataEnd_iff {cs : List Char} :
    cdataEnd.isPrefixOf cs = true ↔ ∃ more, cs = ']' :: ']' :: '>' :: more := by
  rw [List.isPrefixOf_iff_prefix]
  exact ⟨fun ⟨more, h⟩ => ⟨more, h.symm⟩, fun ⟨more, h⟩ => ⟨more, h.symm⟩⟩

theorem occurrences_cons (mark : List Char) (c : Char) (rest : List Char) :
    occurrences mark (c :: rest)
      = (if mark.isPrefixOf (c :: rest) then 1 else 0) + occurrences mark rest := rfl

/-- **There is one chunk more than there are end marks.** -/
theorem length_cdataParts (cs : List Char) :
    (cdataParts cs).length = occurrences cdataEnd cs + 1 := by
  induction cs using cdataChunks.induct with
  | case1 =>
    rw [cdataParts_nil]
    rfl
  | case2 rest _ _ _ ih =>
    have hfirst : cdataEnd.isPrefixOf (']' :: ']' :: '>' :: rest) = true :=
      isPrefixOf_cdataEnd_iff.mpr ⟨rest, rfl⟩
    have hsecond : ¬cdataEnd.isPrefixOf (']' :: '>' :: rest) = true := by
      rw [isPrefixOf_cdataEnd_iff]
      rintro ⟨more, h⟩
      exact absurd (List.cons.inj (List.cons.inj h).2).1 (by decide)
    rw [cdataParts_mark, List.length_cons, ih, occurrences_cons _ ']' (']' :: _), if_pos hfirst,
      occurrences_cons _ ']', if_neg hsecond]
    omega
  | case3 c rest hmark _ _ _ ih =>
    have hno : ¬cdataEnd.isPrefixOf (c :: rest) = true := by
      rw [isPrefixOf_cdataEnd_iff]
      rintro ⟨more, h⟩
      exact hmark more (List.cons.inj h).1 (List.cons.inj h).2
    obtain ⟨chunk, chunks, hrest, hcons⟩ := cdataParts_cons hmark
    rw [hrest, List.length_cons] at ih
    rw [hcons, List.length_cons, ih, occurrences_cons, if_neg hno, Nat.zero_add]

theorem flatten_cdataParts (cs : List Char) : (cdataParts cs).flatten = cs := by
  rw [cdataParts, List.flatten_cons, append_flatten_cdataChunks]

/-! ## Cuts in bytes -/

/-- The first parts of a text take `n` bytes, and others follow. -/
def CutAt (parts : List (List Char)) (n : Nat) : Prop :=
  ∃ p, CutBehind parts p ∧ (Utf8.encode p).length = n

/-- **In bytes, the cuts are two behind the places at which an end mark is found.** -/
theorem cutAt_iff (cs : List Char) (n : Nat) :
    CutAt (cdataParts cs) n ↔
      ∃ i, n = i + 2 ∧ Utf8.encode cdataEnd <+: (Utf8.encode cs).drop i := by
  have hsize : ∀ before : List Char,
      (Utf8.encode (before ++ [']', ']'])).length = (Utf8.encode before).length + 2 := by
    intro before
    rw [Utf8.encode_append, List.length_append]
    rfl
  constructor
  · rintro ⟨p, hcut, rfl⟩
    obtain ⟨before, after, rfl, hsplit⟩ := (cutBehind_iff cs).mp hcut
    have hfound : Utf8.encode cdataEnd <+: (Utf8.encode cs).drop (Utf8.encode before).length :=
      (Utf8.encode_prefix_drop_iff (by decide)).mpr ⟨before, after, hsplit, rfl⟩
    exact ⟨_, hsize before, hfound⟩
  · rintro ⟨i, rfl, hfound⟩
    obtain ⟨before, after, hsplit, rfl⟩ := (Utf8.encode_prefix_drop_iff (by decide)).mp hfound
    exact ⟨_, (cutBehind_iff cs).mpr ⟨before, after, rfl, hsplit⟩, hsize before⟩

/-- A character begins at every cut. -/
theorem isValid_of_cutAt {s : String} {n : Nat} (h : CutAt (cdataParts s.toList) n) :
    String.Pos.Raw.IsValid s ⟨n⟩ := by
  obtain ⟨p, ⟨front, back, hparts, -, -, rfl⟩, rfl⟩ := h
  have hvalid := Utf8.isValid_length_encode front.flatten back.flatten
  rwa [← List.flatten_append, ← hparts, flatten_cdataParts, String.ofList_toList] at hvalid

/-! ## Sections -/

/-- A cut is made at the first mark. -/
theorem cutAfter_eq_some {mark cs : List Char} :
    ∀ {before after : List Char}, cutAfter mark cs = some (before, after) →
      cs = before ++ mark ++ after ∧
        ∀ b a, cs = b ++ mark ++ a → before.length ≤ b.length := by
  induction cs with
  | nil =>
    intro before after h
    rw [cutAfter] at h
    split at h
    · next hmark =>
      cases h
      rw [List.isEmpty_iff.mp hmark]
      exact ⟨rfl, fun _ _ _ => Nat.zero_le _⟩
    · cases h
  | cons c rest ih =>
    intro before after h
    rw [cutAfter] at h
    split at h
    · next hmark =>
      cases h
      obtain ⟨more, hmore⟩ := List.isPrefixOf_iff_prefix.mp hmark
      refine ⟨?_, fun _ _ _ => Nat.zero_le _⟩
      rw [← hmore, List.drop_left, List.nil_append]
    · next hmark =>
      obtain ⟨⟨before', after'⟩, hrest, heq⟩ := Option.map_eq_some_iff.mp h
      cases heq
      obtain ⟨hsplit, hfirst⟩ := ih hrest
      refine ⟨by rw [hsplit]; rfl, fun b a hba => ?_⟩
      cases b with
      | nil => exact absurd (List.isPrefixOf_iff_prefix.mpr ⟨a, hba.symm⟩) hmark
      | cons d b => exact Nat.succ_le_succ (hfirst b a (List.cons.inj hba).2)

/-- The mark at which a CDATA section starts. -/
def cdataStart : List Char := ['<', '!', '[', 'C', 'D', 'A', 'T', 'A', '[']

/-- The first end mark in a text that begins with a chunk is the one behind that chunk. -/
def EndsFirst (chunk after : List Char) : Prop :=
  ∀ b a, chunk ++ cdataEnd ++ after = b ++ cdataEnd ++ a → chunk.length ≤ b.length

/-- What a scan finds in a text that is nothing but sections: from each start mark, it goes to
the first end mark. -/
inductive Sections : List Char → List (List Char) → Prop
  | nil : Sections [] []
  | cons {chunk after : List Char} {chunks : List (List Char)} :
    EndsFirst chunk after → Sections after chunks →
      Sections (cdataStart ++ (chunk ++ cdataEnd ++ after)) (chunk :: chunks)

/-- A text is read as sections in one way only. -/
theorem Sections.unique {text : List Char} {chunks : List (List Char)} (h : Sections text chunks) :
    ∀ {others : List (List Char)}, Sections text others → others = chunks := by
  induction h with
  | nil =>
    intro others h
    generalize htext : ([] : List Char) = text at h
    cases h with
    | nil => rfl
    | cons => cases htext
  | @cons chunk after chunks hfirst _ ih =>
    intro others h
    generalize htext : cdataStart ++ (chunk ++ cdataEnd ++ after) = text at h
    cases h with
    | nil => cases htext
    | @cons chunk' after' chunks' hfirst' hrest' =>
      have hinside := List.append_cancel_left htext
      have hlength : chunk.length = chunk'.length :=
        Nat.le_antisymm (hfirst _ _ hinside) (hfirst' _ _ hinside.symm)
      rw [List.append_assoc, List.append_assoc] at hinside
      obtain ⟨rfl, hbehind⟩ := List.append_inj hinside hlength
      obtain rfl := List.append_cancel_left hbehind
      rw [ih hrest']

theorem endsFirst_of_cutAfter {chunk after : List Char}
    (h : cutAfter cdataEnd (chunk ++ cdataEnd ++ after) = some (chunk, after)) :
    EndsFirst chunk after :=
  (cutAfter_eq_some h).2

/-- No end mark stands in a chunk. -/
theorem not_cdataEnd_infix {cs chunk : List Char} (h : chunk ∈ cdataParts cs) :
    ¬cdataEnd <:+: chunk := by
  rintro ⟨b, a, rfl⟩
  have hfirst := endsFirst_of_cutAfter (cutAfter_cdataChunk cs _ h []) b (a ++ cdataEnd) (by simp)
  rw [List.length_append, List.length_append] at hfirst
  exact absurd hfirst (by rw [cdataEnd, List.length_cons]; omega)

/-- Chunks that end where they should are found again. -/
theorem sections_flatMap {chunks : List (List Char)}
    (h : ∀ chunk ∈ chunks, ∀ after, EndsFirst chunk after) :
    Sections (chunks.flatMap cdataSection) chunks := by
  induction chunks with
  | nil => exact .nil
  | cons chunk more ih =>
    obtain ⟨hchunk, hmore⟩ := List.forall_mem_cons.mp h
    have hcons := Sections.cons (hchunk (more.flatMap cdataSection)) (ih hmore)
    rwa [List.append_assoc, ← List.append_assoc, ← List.append_assoc] at hcons

/-- The chunks of CDATA texts side by side. -/
def cdataPartsOf (ss : List String) : List (List Char) :=
  ss.flatMap fun s => cdataParts s.toList

theorem cdataPartsOf_cons (s : String) (ss : List String) :
    cdataPartsOf (s :: ss) = cdataParts s.toList ++ cdataPartsOf ss :=
  List.flatMap_cons

theorem cutAfter_cdataPartsOf {ss : List String} {chunk : List Char} (h : chunk ∈ cdataPartsOf ss)
    (after : List Char) : cutAfter cdataEnd (chunk ++ cdataEnd ++ after) = some (chunk, after) := by
  obtain ⟨s, -, hchunk⟩ := List.mem_flatMap.mp h
  exact cutAfter_cdataChunk s.toList chunk hchunk after

/-- CDATA children are written as the sections of their chunks. -/
theorem childrenText_cdata (ss : List String) :
    childrenText (ss.map .cdata) = .ok ((cdataPartsOf ss).flatMap cdataSection) := by
  induction ss with
  | nil => rw [List.map_nil, childrenText]; rfl
  | cons s rest ih =>
    rw [List.map_cons, childrenText_cons, contentText, ok_bind, ih, cdataPartsOf_cons,
      List.flatMap_append]
    rfl

/-- **CDATA is split without a trace.** A text is written as chunks that make it up, one more
than it has end marks, with no end mark in any of them. It is cut two bytes behind the places
where the bytes of an end mark are found, at which characters begin. Whatever CDATA stands next
to it, a scan for sections gives back the chunks as they were written, and so does the reader,
whatever follows. -/
theorem cdata_split :
    (∀ s : String,
      contentText (.cdata s) = .ok ((cdataParts s.toList).flatMap cdataSection) ∧
      (cdataParts s.toList).length = occurrences cdataEnd s.toList + 1 ∧
      (cdataParts s.toList).flatten = s.toList ∧
      (∀ chunk ∈ cdataParts s.toList, ¬cdataEnd <:+: chunk) ∧
      (∀ n, CutAt (cdataParts s.toList) n ↔
        ∃ i, n = i + 2 ∧ Utf8.encode cdataEnd <+: (Utf8.encode s.toList).drop i) ∧
      ∀ n, CutAt (cdataParts s.toList) n → String.Pos.Raw.IsValid s ⟨n⟩) ∧
    ∀ ss : List String, ∃ text, childrenText (ss.map .cdata) = .ok text ∧
      (∀ found, Sections text found ↔ found = cdataPartsOf ss) ∧
      ∀ rest, lex (text ++ rest) = (cdataPartsOf ss).map .cdata ++ lex rest := by
  refine ⟨fun s => ⟨rfl, length_cdataParts _, flatten_cdataParts _, fun _ => not_cdataEnd_infix,
    cutAt_iff _, fun _ => isValid_of_cutAt⟩, fun ss => ⟨_, childrenText_cdata ss, ?_, ?_⟩⟩
  · have hsections := sections_flatMap fun _ (hchunk : _ ∈ cdataPartsOf ss) after =>
      endsFirst_of_cutAfter (cutAfter_cdataPartsOf hchunk after)
    exact fun found => ⟨hsections.unique, fun h => h ▸ hsections⟩
  · exact lex_sections fun _ hchunk after => cutAfter_cdataPartsOf hchunk after

example : cdataPartsOf ["a]]]>", ">]]"] = [['a', ']', ']', ']'], ['>'], ['>', ']', ']']] := by
  cbv

end EventWire.Xml

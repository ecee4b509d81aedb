import EventWire.Proofs.Blank
import EventWire.Proofs.Xml.Escape

/-!
# Cutting text into events

Every event takes a character away (`length_next_le`), so the number of rounds never
decides what is read: `lex` cuts a whole text, and `lex_cons` is its equation, one
event after the other.

The pieces that are written come back as the events they are meant to be, whatever
follows them: texts (`lex_text`), CDATA (`lex_cdataText`), the start tag, the empty
element and the end tag of a valid name (`lex_startTag`, `lex_emptyTag`,
`lex_endTag`).
-/

namespace EventWire.Xml

/-! ## Rounds -/

theorem length_cutAfter {mark : List Char} (cs : List Char) :
    ∀ {before after}, cutAfter mark cs = some (before, after) → after.length ≤ cs.length := by
  induction cs with
  | nil =>
    intro before after h
    rw [cutAfter] at h
    split at h
    · cases h; exact Nat.le_refl _
    · cases h
  | cons c rest ih =>
    intro before after h
    rw [cutAfter] at h
    split at h
    · cases h
      exact List.length_drop ▸ Nat.sub_le _ _
    · obtain ⟨⟨before', after'⟩, hrest, heq⟩ := Option.map_eq_some_iff.mp h
      cases heq
      exact Nat.le_succ_of_le (ih hrest)

theorem cutTag_none_cons (c : Char) (rest : List Char) :
    cutTag none (c :: rest) =
      if c == '>' then some ([], rest)
      else (cutTag (if c = '"' || c = '\'' then some c else none) rest).map
        fun (before, after) => (c :: before, after) := rfl

theorem cutTag_some_cons (q c : Char) (rest : List Char) :
    cutTag (some q) (c :: rest) =
      (cutTag (if c = q then none else some q) rest).map
        fun (before, after) => (c :: before, after) := rfl

theorem length_cutTag (cs : List Char) :
    ∀ {quote before after}, cutTag quote cs = some (before, after) → after.length ≤ cs.length := by
  induction cs with
  | nil => intro quote before after h; cases h
  | cons c rest ih =>
    intro quote before after h
    cases quote with
    | none =>
      rw [cutTag_none_cons] at h
      split at h
      · cases h
        exact Nat.le_succ _
      · obtain ⟨⟨before', after'⟩, hrest, heq⟩ := Option.map_eq_some_iff.mp h
        cases heq
        exact Nat.le_succ_of_le (ih hrest)
    | some q =>
      rw [cutTag_some_cons] at h
      obtain ⟨⟨before', after'⟩, hrest, heq⟩ := Option.map_eq_some_iff.mp h
      cases heq
      exact Nat.le_succ_of_le (ih hrest)

theorem length_cutBalanced (cs : List Char) :
    ∀ {nested before after}, cutBalanced nested cs = some (before, after) →
      after.length ≤ cs.length := by
  induction cs with
  | nil => intro nested before after h; cases h
  | cons c rest ih =>
    intro nested before after h
    rw [cutBalanced] at h
    split at h
    · cases h
      exact Nat.le_succ _
    · obtain ⟨⟨before', after'⟩, hrest, heq⟩ := Option.map_eq_some_iff.mp h
      cases heq
      exact Nat.le_succ_of_le (ih hrest)

theorem length_bangEvent (cs : List Char) : (bangEvent cs).2.length ≤ cs.length := by
  unfold bangEvent
  dsimp only
  split
  · next rest =>
    cases h : cutAfter ['-', '-', '>'] rest with
    | none => exact Nat.zero_le _
    | some p => exact Nat.le_trans (length_cutAfter rest h) (Nat.le_add_right _ 2)
  · next rest =>
    cases h : cutAfter [']', ']', '>'] rest with
    | none => exact Nat.zero_le _
    | some p => exact Nat.le_trans (length_cutAfter rest h) (Nat.le_add_right _ 7)
  · next c rest _ _ =>
    split
    · cases h : cutBalanced 0 (c :: rest) with
      | none => exact Nat.zero_le _
      | some p => exact length_cutBalanced _ h
    · exact Nat.zero_le _
  · exact Nat.le_refl _

theorem length_markupEvent (cs : List Char) : (markupEvent cs).2.length ≤ cs.length := by
  unfold markupEvent
  split
  · exact Nat.le_refl _
  · exact Nat.le_succ_of_le (length_bangEvent _)
  · split
    · next h => exact Nat.le_succ_of_le (length_cutTag _ h)
    · exact Nat.zero_le _
  · split
    · exact Nat.zero_le _
    · split
      · next h => exact Nat.le_succ_of_le (length_cutAfter _ h)
      · exact Nat.zero_le _
  · split
    · next h => exact length_cutTag _ h
    · exact Nat.zero_le _

/-- An event takes its first character, and perhaps more. -/
theorem length_next_le (c : Char) (rest : List Char) :
    (Event.next c rest).2.length ≤ rest.length := by
  unfold Event.next
  split
  · exact length_markupEvent rest
  · exact (List.dropWhile_suffix _).length_le

/-- The events of a whole text, end tags not matched yet. -/
def lex (cs : List Char) : List Event :=
  eventsWithin cs.length cs

theorem eventsWithin_eq_lex (fuel : Nat) :
    ∀ {cs : List Char}, cs.length ≤ fuel → eventsWithin fuel cs = lex cs := by
  -- Both sides go on with what one event left, each with its own number of rounds, and
  -- both numbers are below `fuel`.
  induction fuel using Nat.strongRecOn with
  | ind fuel ih =>
    intro cs h
    cases cs with
    | nil => cases fuel <;> rfl
    | cons c rest =>
      obtain ⟨fuel, rfl⟩ := Nat.exists_eq_add_one.mpr (Nat.lt_of_lt_of_le (Nat.succ_pos _) h)
      have hrest : rest.length ≤ fuel := Nat.le_of_succ_le_succ h
      have hafter := length_next_le c rest
      rw [lex, List.length_cons, eventsWithin, eventsWithin]
      dsimp only
      rw [ih fuel (Nat.lt_succ_self _) (Nat.le_trans hafter hrest),
        ih rest.length (Nat.lt_succ_of_le hrest) hafter]

theorem lex_nil : lex [] = [] := rfl

/-- One event, and then those of what is left. -/
theorem lex_cons {c : Char} {rest after : List Char} {event : Event}
    (h : Event.next c rest = (event, after)) (hok : event ≠ .fault) :
    lex (c :: rest) = event :: lex after := by
  have hle := length_next_le c rest
  rw [h] at hle
  rw [lex, List.length_cons, eventsWithin, h]
  dsimp only
  rw [if_neg hok, eventsWithin_eq_lex _ hle]

/-! ## Names -/

theorem ne_of_isNameChar {c x : Char} (hx : isNameChar x = false) (h : isNameChar c = true) :
    c ≠ x := by
  rintro rfl
  exact Bool.false_ne_true (hx.symm.trans h)

theorem isNameChar_of_isNameStart {c : Char} (h : isNameStart c = true) : isNameChar c = true := by
  simp only [isNameStart, Bool.or_eq_true] at h
  simp only [isNameChar, Bool.or_eq_true]
  rcases h with (h | h) | h
  · simp [h]
  · simp [h]
  · simp [h]

theorem not_isPlainBlank_of_isNameChar {c : Char} (h : isNameChar c = true) :
    Text.isPlainBlank c = false := by
  have hspace := ne_of_isNameChar (x := ' ') (by decide) h
  have htab := ne_of_isNameChar (x := '\t') (by decide) h
  have hline := ne_of_isNameChar (x := '\n') (by decide) h
  have hreturn := ne_of_isNameChar (x := '\r') (by decide) h
  simp [Text.isPlainBlank, hspace, htab, hline, hreturn]

/-- A valid name has a first character, and each of its characters is one of names. -/
theorem isValidNameChars_cases {cs : List Char} (h : isValidNameChars cs = true) :
    ∃ c rest, cs = c :: rest ∧ isNameStart c = true ∧ ∀ x ∈ cs, isNameChar x = true := by
  cases cs with
  | nil => exact absurd h (by decide)
  | cons c rest =>
    rw [isValidNameChars, Bool.and_eq_true, List.all_eq_true] at h
    refine ⟨c, rest, rfl, h.1, fun x hx => ?_⟩
    rcases List.mem_cons.mp hx with rfl | hrest
    · exact isNameChar_of_isNameStart h.1
    · exact h.2 x hrest

/-! ## Texts and CDATA -/

theorem lex_text {raw : List Char} (hne : raw ≠ []) (hraw : '<' ∉ raw) (rest : List Char) :
    lex (raw ++ '<' :: rest) = .text raw :: lex ('<' :: rest) := by
  obtain ⟨c, more, rfl⟩ := List.exists_cons_of_ne_nil hne
  have hc : c ≠ '<' := fun e => hraw (e ▸ List.mem_cons_self ..)
  have hmore : ∀ x ∈ more, (decide (x ≠ '<')) = true := fun x hx =>
    decide_eq_true fun e => hraw (e ▸ List.mem_cons_of_mem _ hx)
  have hnext : Event.next c (more ++ '<' :: rest) = (.text (c :: more), '<' :: rest) := by
    rw [Event.next, if_neg hc, List.takeWhile_append_of_pos hmore,
      List.dropWhile_append_of_pos hmore, List.takeWhile_cons, List.dropWhile_cons]
    simp
  rw [List.cons_append, lex_cons hnext Event.noConfusion]

/-- Reading finds the end of a section that was written. -/
theorem lex_cdataSection {chunk : List Char}
    (h : ∀ after, cutAfter cdataEnd (chunk ++ cdataEnd ++ after) = some (chunk, after))
    (rest : List Char) : lex (cdataSection chunk ++ rest) = .cdata chunk :: lex rest := by
  have hnext : Event.next '<'
      (['!', '[', 'C', 'D', 'A', 'T', 'A', '['] ++ chunk ++ cdataEnd ++ rest)
      = (.cdata chunk, rest) := by
    rw [Event.next, if_pos rfl]
    show bangEvent (['[', 'C', 'D', 'A', 'T', 'A', '['] ++ (chunk ++ cdataEnd ++ rest)) = _
    unfold bangEvent
    show ((cutAfter cdataEnd (chunk ++ cdataEnd ++ rest)).map _).getD _ = _
    rw [h]
    rfl
  exact lex_cons hnext Event.noConfusion

/-- The sections of a CDATA text. -/
def cdataEvents (cs : List Char) : List Event :=
  ((cdataChunks cs).1 :: (cdataChunks cs).2).map .cdata

theorem lex_sections {chunks : List (List Char)}
    (h : ∀ chunk ∈ chunks, ∀ after,
      cutAfter cdataEnd (chunk ++ cdataEnd ++ after) = some (chunk, after))
    (rest : List Char) :
    lex (chunks.flatMap cdataSection ++ rest) = chunks.map .cdata ++ lex rest := by
  induction chunks with
  | nil => rfl
  | cons chunk more ih =>
    rw [List.flatMap_cons, List.append_assoc, lex_cdataSection (h chunk (List.mem_cons_self ..)),
      ih fun c hc => h c (List.mem_cons_of_mem _ hc), List.map_cons, List.cons_append]

theorem lex_cdataText (cs rest : List Char) :
    lex (cdataText cs ++ rest) = cdataEvents cs ++ lex rest :=
  lex_sections (cutAfter_cdataChunk cs) rest

/-! ## Tags -/

/-- The tag does not end within the text, and no quote is open behind it. -/
def Enclosed (cs : List Char) : Prop :=
  ∀ rest, cutTag none (cs ++ rest) =
    (cutTag none rest).map fun (before, after) => (cs ++ before, after)

theorem enclosed_nil : Enclosed [] := by
  intro rest
  rw [List.nil_append]
  exact Option.map_id'.symm

theorem enclosed_append {as bs : List Char} (ha : Enclosed as) (hb : Enclosed bs) :
    Enclosed (as ++ bs) := by
  intro rest
  rw [List.append_assoc, ha, hb, Option.map_map]
  cases cutTag none rest with
  | none => rfl
  | some p =>
    show some (as ++ (bs ++ p.1), p.2) = some (as ++ bs ++ p.1, p.2)
    rw [List.append_assoc]

/-- The first `>` behind such a text ends the tag. -/
theorem cutTag_enclosed {cs : List Char} (h : Enclosed cs) (rest : List Char) :
    cutTag none (cs ++ '>' :: rest) = some (cs, rest) := by
  rw [h, cutTag_none_cons, if_pos (by decide)]
  show some (cs ++ [], rest) = some (cs, rest)
  rw [List.append_nil]

/-- A quote that is open is one of the two marks. -/
def OpenQuote (quote : Option Char) : Prop :=
  ∀ c ∈ quote, c = '"' ∨ c = '\''

theorem openQuote_none : OpenQuote none := by
  rintro _ ⟨⟩

/-- Where a tag does not end within a text, the text leaves a quote open or none, and whatever
follows is cut as from there. -/
theorem exists_quote_of_cutTag {cs : List Char} : ∀ {quote : Option Char}
    {after before rest : List Char}, OpenQuote quote →
      cutTag quote (cs ++ after) = some (cs ++ before, rest) →
      ∃ quote', OpenQuote quote' ∧ cutTag quote' after = some (before, rest) ∧
        ∀ more, cutTag quote (cs ++ more)
          = (cutTag quote' more).map fun (before, rest) => (cs ++ before, rest) := by
  induction cs with
  | nil => exact fun hquote h => ⟨_, hquote, h, fun _ => Option.map_id'.symm⟩
  | cons c cs ih =>
    intro quote after before rest hquote h
    cases quote with
    | none =>
      rw [List.cons_append, cutTag_none_cons] at h
      split at h
      · cases h
      · next hgt =>
        obtain ⟨⟨before', rest'⟩, hmore, heq⟩ := Option.map_eq_some_iff.mp h
        cases heq
        have hstate : OpenQuote (if c = '"' || c = '\'' then some c else none) := by
          split
          · next hc =>
            intro d hd
            cases hd
            simpa using hc
          · exact openQuote_none
        obtain ⟨quote', hquote', hafter, hgoes⟩ := ih hstate hmore
        refine ⟨quote', hquote', hafter, fun more => ?_⟩
        rw [List.cons_append, cutTag_none_cons, if_neg hgt, hgoes, Option.map_map]
        rfl
    | some q =>
      rw [List.cons_append, cutTag_some_cons] at h
      obtain ⟨⟨before', rest'⟩, hmore, heq⟩ := Option.map_eq_some_iff.mp h
      cases heq
      have hstate : OpenQuote (if c = q then none else some q) := by
        split
        · exact openQuote_none
        · exact hquote
      obtain ⟨quote', hquote', hafter, hgoes⟩ := ih hstate hmore
      refine ⟨quote', hquote', hafter, fun more => ?_⟩
      rw [List.cons_append, cutTag_some_cons, hgoes, Option.map_map]
      rfl

/-- A tag does not end where a quote is open. -/
theorem cutTag_some_ne {q : Char} {cs before rest : List Char}
    (h : cutTag (some q) cs = some (before, rest)) : before ≠ [] := by
  cases cs with
  | nil => cases h
  | cons c more =>
    rw [cutTag_some_cons] at h
    obtain ⟨p, -, heq⟩ := Option.map_eq_some_iff.mp h
    cases heq
    exact List.cons_ne_nil _ _

/-- It is enough that the tag ends where it should when nothing follows. -/
theorem enclosed_of_cutTag {cs : List Char} (h : cutTag none (cs ++ ['>']) = some (cs, [])) :
    Enclosed cs := by
  have hcut : cutTag none (cs ++ ['>']) = some (cs ++ [], []) := by rw [List.append_nil, h]
  obtain ⟨quote, -, hbehind, hgoes⟩ := exists_quote_of_cutTag openQuote_none hcut
  cases quote with
  | none => exact hgoes
  | some q => exact absurd rfl (cutTag_some_ne hbehind)

theorem enclosed_of_plain {cs : List Char} (h : ∀ c ∈ cs, c ≠ '>' ∧ c ≠ '"' ∧ c ≠ '\'') :
    Enclosed cs := by
  induction cs with
  | nil => exact enclosed_nil
  | cons c more ih =>
    intro rest
    obtain ⟨hgt, hquote, happ⟩ := h c (List.mem_cons_self ..)
    have hmore := ih (fun x hx => h x (List.mem_cons_of_mem _ hx)) rest
    rw [List.cons_append, cutTag_none_cons, if_neg (by simpa using hgt),
      if_neg (by simp [hquote, happ]), hmore, Option.map_map]
    rfl

theorem enclosed_singleton {c : Char} (hgt : c ≠ '>') (hquote : c ≠ '"') (happ : c ≠ '\'') :
    Enclosed [c] :=
  enclosed_of_plain (List.forall_mem_singleton.mpr ⟨hgt, hquote, happ⟩)

theorem cutTag_quoted {cs : List Char} (h : '"' ∉ cs) (rest : List Char) :
    cutTag (some '"') (cs ++ '"' :: rest) =
      (cutTag none rest).map fun (before, after) => (cs ++ '"' :: before, after) := by
  induction cs with
  | nil => rfl
  | cons c more ih =>
    have hc : c ≠ '"' := fun e => h (e ▸ List.mem_cons_self ..)
    have hmore := ih fun hx => h (List.mem_cons_of_mem _ hx)
    rw [List.cons_append, cutTag_some_cons, if_neg hc, hmore, Option.map_map]
    rfl

theorem enclosed_quoted {cs : List Char} (h : '"' ∉ cs) : Enclosed ('"' :: cs ++ ['"']) := by
  intro rest
  have hcut := cutTag_quoted h rest
  rw [List.append_assoc, List.cons_append, cutTag_none_cons, if_neg (by decide), if_pos (by decide)]
  show (cutTag (some '"') (cs ++ '"' :: rest)).map _ = _
  rw [hcut, Option.map_map]
  cases cutTag none rest with
  | none => rfl
  | some p =>
    show some ('"' :: (cs ++ '"' :: p.1), p.2) = some ('"' :: (cs ++ ['"'] ++ p.1), p.2)
    rw [List.append_assoc]
    rfl

theorem enclosed_name {cs : List Char} (h : ∀ c ∈ cs, isNameChar c = true) : Enclosed cs :=
  enclosed_of_plain fun c hc =>
    ⟨ne_of_isNameChar (by decide) (h c hc), ne_of_isNameChar (by decide) (h c hc),
      ne_of_isNameChar (by decide) (h c hc)⟩

theorem attributeText_eq (a : String × String) :
    attributeText a = [' '] ++ a.1.toList ++ ['='] ++ ('"' :: escape a.2.toList ++ ['"']) := by
  simp [attributeText]

theorem enclosed_attributeText {a : String × String} (h : isValidName a.1 = true) :
    Enclosed (attributeText a) := by
  obtain ⟨-, -, -, -, hchars⟩ := isValidNameChars_cases h
  have hblank : Enclosed [' '] := enclosed_singleton (by decide) (by decide) (by decide)
  have hequals : Enclosed ['='] := enclosed_singleton (by decide) (by decide) (by decide)
  have hvalue := enclosed_quoted (not_mem_escape (Or.inr (Or.inr (Or.inl rfl))) a.2.toList)
  rw [attributeText_eq]
  exact enclosed_append (enclosed_append (enclosed_append hblank (enclosed_name hchars)) hequals)
    hvalue

theorem enclosed_attributes {attributes : List (String × String)}
    (h : ∀ a ∈ attributes, isValidName a.1 = true) :
    Enclosed (attributes.flatMap attributeText) := by
  induction attributes with
  | nil => exact enclosed_nil
  | cons a more ih =>
    rw [List.flatMap_cons]
    exact enclosed_append (enclosed_attributeText (h a (List.mem_cons_self ..)))
      (ih fun b hb => h b (List.mem_cons_of_mem _ hb))

/-- What stands behind the name begins with a blank. -/
theorem attributes_cases (attributes : List (String × String)) :
    attributes.flatMap attributeText = [] ∨
      ∃ more, attributes.flatMap attributeText = ' ' :: more := by
  cases attributes with
  | nil => exact Or.inl rfl
  | cons a more => exact Or.inr ⟨_, rfl⟩

/-- A valid name goes up to the first blank. -/
theorem splitTag_append {name : String} (h : isValidName name = true) {more : List Char}
    (hmore : ∀ c ∈ more.head?, Text.isPlainBlank c = true) :
    splitTag (name.toList ++ more) = (name.toList, more) := by
  obtain ⟨-, -, -, -, hchars⟩ := isValidNameChars_cases h
  have hname : ∀ c ∈ name.toList, (!Text.isPlainBlank c) = true := fun c hc => by
    rw [not_isPlainBlank_of_isNameChar (hchars c hc)]
    rfl
  rw [splitTag, List.takeWhile_append_of_pos hname, List.dropWhile_append_of_pos hname]
  cases more with
  | nil => rw [List.takeWhile_nil, List.append_nil, List.dropWhile_nil]
  | cons c rest =>
    have hc : ¬(!Text.isPlainBlank c) = true := by
      rw [hmore c rfl]
      decide
    rw [List.takeWhile_cons, if_neg hc, List.append_nil, List.dropWhile_cons, if_neg hc]

theorem splitTag_tagText {name : String} (h : isValidName name = true)
    (attributes : List (String × String)) :
    splitTag (tagText name attributes) = (name.toList, attributes.flatMap attributeText) := by
  refine splitTag_append h fun c hc => ?_
  rcases attributes_cases attributes with hnil | ⟨more, hmore⟩
  · rw [hnil] at hc
    cases hc
  · rw [hmore] at hc
    cases hc
    decide

theorem getLast?_attributes {attributes : List (String × String)} (h : attributes ≠ []) :
    (attributes.flatMap attributeText).getLast? = some '"' := by
  obtain ⟨front, a, rfl⟩ := (List.eq_nil_or_concat attributes).resolve_left h
  rw [List.concat_eq_append, List.flatMap_append, List.flatMap_singleton, attributeText_eq,
    ← List.append_assoc, ← List.append_assoc, ← List.append_assoc, List.getLast?_concat]

/-- A tag ends with a name or with a quote. -/
theorem getLast?_tagText {name : String} (h : isValidName name = true)
    (attributes : List (String × String)) : (tagText name attributes).getLast? ≠ some '/' := by
  rw [tagText]
  by_cases hnil : attributes = []
  · obtain ⟨-, -, -, -, hchars⟩ := isValidNameChars_cases h
    rw [hnil, List.flatMap_nil, List.append_nil]
    intro hlast
    exact ne_of_isNameChar (by decide) (hchars _ (List.mem_of_getLast? hlast)) rfl
  · rw [List.getLast?_append, getLast?_attributes hnil, Option.some_or]
    decide

/-- Behind the bracket, a tag is read by its first character. -/
theorem markupEvent_of_isNameStart {c : Char} (h : isNameStart c = true) (more : List Char) :
    markupEvent (c :: more) =
      match cutTag none (c :: more) with
      | some (inside, after) => (openingEvent inside, after)
      | none => (.fault, []) := by
  have hc := isNameChar_of_isNameStart h
  have hne : ∀ {x : Char}, isNameChar x = false →
      ∀ {rest : List Char}, c :: more = x :: rest → False := by
    intro x hx rest e
    exact ne_of_isNameChar hx hc (List.cons.inj e).1
  -- The other cases begin with `!`, `/` or `?`, none of which stands in a name.
  unfold markupEvent
  split
  · next e => cases e
  · next e => exact (hne (by decide) e).elim
  · next e => exact (hne (by decide) e).elim
  · next e => exact (hne (by decide) e).elim
  · rfl

/-- What stands between the brackets of a tag decides what is read. -/
theorem next_tag {inside : List Char} (h : Enclosed inside) (hname : ∃ c more, inside = c :: more ∧
    isNameStart c = true) (rest : List Char) :
    Event.next '<' (inside ++ '>' :: rest) = (openingEvent inside, rest) := by
  obtain ⟨c, more, rfl, hstart⟩ := hname
  rw [Event.next, if_pos rfl, List.cons_append, markupEvent_of_isNameStart hstart,
    ← List.cons_append, cutTag_enclosed h]

theorem tagText_starts {name : String} (h : isValidName name = true)
    (attributes : List (String × String)) (more : List Char) :
    ∃ c rest, tagText name attributes ++ more = c :: rest ∧ isNameStart c = true := by
  obtain ⟨c, rest, hname, hstart, -⟩ := isValidNameChars_cases h
  exact ⟨c, _, by rw [tagText, hname]; rfl, hstart⟩

/-- A tag of a valid name is read from where it ends, and not at all if it never does. -/
theorem next_tagText {name : String} (h : isValidName name = true)
    (attributes : List (String × String)) (after : List Char) :
    Event.next '<' (tagText name attributes ++ after) =
      ((cutTag none (attributes.flatMap attributeText ++ after)).map fun (inside, rest) =>
        (openingEvent (name.toList ++ inside), rest)).getD (.fault, []) := by
  obtain ⟨-, -, -, -, hchars⟩ := isValidNameChars_cases h
  have hcut : cutTag none (tagText name attributes ++ after)
      = (cutTag none (attributes.flatMap attributeText ++ after)).map
          fun (before, rest) => (name.toList ++ before, rest) := by
    rw [tagText, List.append_assoc, enclosed_name hchars]
  obtain ⟨c, more, hcons, hc⟩ := tagText_starts h attributes after
  rw [Event.next, if_pos rfl, hcons, markupEvent_of_isNameStart hc, ← hcons, hcut]
  cases cutTag none (attributes.flatMap attributeText ++ after) with
  | none => rfl
  | some p => rfl

section Tags

variable {name : String} {attributes : List (String × String)}

theorem enclosed_tagText (hname : isValidName name = true)
    (hattributes : Enclosed (attributes.flatMap attributeText)) :
    Enclosed (tagText name attributes) := by
  obtain ⟨-, -, -, -, hchars⟩ := isValidNameChars_cases hname
  exact enclosed_append (enclosed_name hchars) hattributes

theorem lex_startTag (hname : isValidName name = true)
    (hattributes : Enclosed (attributes.flatMap attributeText)) (rest : List Char) :
    lex ('<' :: tagText name attributes ++ '>' :: rest)
      = .start name.toList (attributes.flatMap attributeText) :: lex rest := by
  have hopening : openingEvent (tagText name attributes)
      = .start name.toList (attributes.flatMap attributeText) := by
    rw [openingEvent, if_neg (getLast?_tagText hname attributes), splitTag_tagText hname]
  have hstarts := tagText_starts hname attributes []
  rw [List.append_nil] at hstarts
  have hnext := next_tag (enclosed_tagText hname hattributes) hstarts rest
  rw [hopening] at hnext
  exact lex_cons hnext Event.noConfusion

theorem lex_emptyTag (hname : isValidName name = true)
    (hattributes : Enclosed (attributes.flatMap attributeText)) (rest : List Char) :
    lex ('<' :: tagText name attributes ++ '/' :: '>' :: rest)
      = .empty name.toList (attributes.flatMap attributeText) :: lex rest := by
  have hopening : openingEvent (tagText name attributes ++ ['/'])
      = .empty name.toList (attributes.flatMap attributeText) := by
    rw [openingEvent, if_pos List.getLast?_concat, List.dropLast_concat, splitTag_tagText hname]
  have hslash : Enclosed ['/'] := enclosed_singleton (by decide) (by decide) (by decide)
  have henclosed := enclosed_append (enclosed_tagText hname hattributes) hslash
  have hnext := next_tag henclosed (tagText_starts hname attributes ['/']) rest
  rw [hopening, List.append_assoc] at hnext
  exact lex_cons hnext Event.noConfusion

theorem lex_endTag (hname : isValidName name = true) (rest : List Char) :
    lex ('<' :: '/' :: name.toList ++ '>' :: rest) = .close name.toList :: lex rest := by
  obtain ⟨c, more, hcons, -, hchars⟩ := isValidNameChars_cases hname
  have hlast : ∀ x, name.toList.getLast? = some x → Text.isPlainBlank x = false := fun x hx =>
    not_isPlainBlank_of_isNameChar (hchars x (List.mem_of_getLast? hx))
  have hclosing : closingEvent name.toList = .close name.toList := by
    rw [closingEvent, Text.dropEndWhile_eq_self hlast, hcons]
    rfl
  have hnext : Event.next '<' ('/' :: (name.toList ++ '>' :: rest))
      = (.close name.toList, rest) := by
    rw [Event.next, if_pos rfl, markupEvent, cutTag_enclosed (enclosed_name hchars)]
    dsimp only
    rw [hclosing]
  exact lex_cons hnext Event.noConfusion

end Tags

end EventWire.Xml

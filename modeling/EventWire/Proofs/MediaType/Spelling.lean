import EventWire.Proofs.MediaType.Parts

/-!
# Spellings of media types

A media type may be spelled in many ways: parameters come in any order, letters of type,
subtype and names in any case, blanks stand around the separators, empty segments between
the parameters, and a value is a bare token or stands between quotation marks, where any
character may be escaped (`Spells`). All spellings are read as the same
(`exists_parse_of_spells`).

`Closed` says of a piece of text that cutting at semicolons passes over it as a whole. Values
are closed, because what a value holds is between quotation marks unless it is a token. So the
reader gets the segments that were spelled (`SegmentsSpelling.exists_segments`), and from each the
parameter that it was spelled for (`ParameterSpelling.readSegment`).
-/

namespace EventWire.MediaType

/-! ## Cutting -/

theorem cutAt_append {x : Char} {front : List Char} (h : x ∉ front) (after : List Char) :
    cutAt x (front ++ x :: after) = some (front, after) := by
  induction front with
  | nil => rw [List.nil_append, cutAt, if_pos rfl]
  | cons c front ih =>
    have hne : c ≠ x := fun e => h (e ▸ List.mem_cons_self ..)
    rw [List.cons_append, cutAt, if_neg hne, ih fun hmem => h (List.mem_cons_of_mem _ hmem)]
    rfl

/-- A text is cut at the first such character. -/
theorem cutAt_eq_some {x : Char} {cs : List Char} : ∀ {front after : List Char},
    cutAt x cs = some (front, after) ↔ cs = front ++ x :: after ∧ x ∉ front := by
  induction cs with
  | nil =>
    intro front after
    refine ⟨fun h => (nomatch h), fun ⟨h, _⟩ => ?_⟩
    exact absurd h.symm (List.append_ne_nil_of_right_ne_nil _ (List.cons_ne_nil _ _))
  | cons c rest ih =>
    intro front after
    constructor
    · intro h
      rw [cutAt] at h
      split at h
      · next hc =>
        cases h
        exact ⟨by rw [hc, List.nil_append], List.not_mem_nil⟩
      · next hc =>
        obtain ⟨⟨front', after'⟩, hrest, heq⟩ := Option.map_eq_some_iff.mp h
        cases heq
        obtain ⟨htext, hnot⟩ := ih.mp hrest
        refine ⟨by rw [htext, List.cons_append], fun hmem => ?_⟩
        rcases List.mem_cons.mp hmem with hsame | hmem
        · exact hc hsame.symm
        · exact hnot hmem
    · rintro ⟨htext, hnot⟩
      rw [htext]
      exact cutAt_append hnot after

/-- Whether quotation marks are open behind a character, and whether it takes the next one. -/
def nextState (quoted escaped : Bool) (c : Char) : Bool × Bool :=
  if escaped then (quoted, false)
  else if c = '\\' && quoted then (quoted, true)
  else if c = '"' then (!quoted, false)
  else (quoted, false)

/-- True for a semicolon that ends a segment. -/
def endsSegment (quoted escaped : Bool) (c : Char) : Bool :=
  c = ';' && !quoted && !escaped

/-- The first piece with more in front of it. -/
def prepend (front : List Char) (r : List Char × List (List Char)) :
    List Char × List (List Char) :=
  (front ++ r.1, r.2)

/-- A character is cut away, or goes to the piece that begins behind it. -/
theorem cutSegments_cons (quoted escaped : Bool) (c : Char) (rest : List Char) :
    cutSegments quoted escaped (c :: rest)
      = (cutSegments (nextState quoted escaped c).1 (nextState quoted escaped c).2 rest).map
          fun r => if endsSegment quoted escaped c then ([], r.1 :: r.2) else prepend [c] r := by
  cases escaped with
  | true => simp [cutSegments, nextState, endsSegment, prepend]
  | false =>
    rw [cutSegments]
    by_cases hslash : (decide (c = '\\') && quoted) = true
    · obtain ⟨hc, rfl⟩ : c = '\\' ∧ quoted = true := by simpa using hslash
      simp [nextState, endsSegment, prepend, hc]
    · by_cases hquote : c = '"'
      · simp [nextState, endsSegment, prepend, hquote]
      · by_cases hsemi : (decide (c = ';') && !quoted) = true
        · simp [nextState, endsSegment, hslash, hquote, hsemi]
        · simp [nextState, endsSegment, prepend, hslash, hquote, hsemi]

theorem prepend_prepend (a b : List Char) (r : Option (List Char × List (List Char))) :
    (r.map (prepend b)).map (prepend a) = r.map (prepend (a ++ b)) := by
  rw [Option.map_map]
  congr 1
  funext r
  show (a ++ (b ++ r.1), r.2) = (a ++ b ++ r.1, r.2)
  rw [List.append_assoc]

theorem nextState_of_isBlank {c : Char} (h : Text.isBlank c = true) (quoted escaped : Bool) :
    nextState quoted escaped c = (quoted, false) := by
  have hslash : c ≠ '\\' := by
    rintro rfl
    exact absurd h (by decide)
  have hquote : c ≠ '"' := by
    rintro rfl
    exact absurd h (by decide)
  simp [nextState, hslash, hquote]

theorem endsSegment_of_isBlank {c : Char} (h : Text.isBlank c = true) (quoted escaped : Bool) :
    endsSegment quoted escaped c = false := by
  have hsemi : c ≠ ';' := by
    rintro rfl
    exact absurd h (by decide)
  simp [endsSegment, hsemi]

theorem cutSegments_blanks {blanks : List Char} (h : Text.blankOnly blanks = true) :
    ∀ quoted escaped : Bool,
      cutSegments quoted escaped blanks = if quoted then none else some (blanks, []) := by
  induction blanks with
  | nil =>
    intro quoted escaped
    rw [cutSegments]
  | cons c rest ih =>
    intro quoted escaped
    rw [Text.blankOnly, List.all_cons, Bool.and_eq_true] at h
    rw [cutSegments_cons, nextState_of_isBlank h.1, endsSegment_of_isBlank h.1, ih h.2]
    cases quoted with
    | true => rfl
    | false => rfl

/-- Blanks at the end go to the last piece. They close no quotation marks, so a text with
blanks behind it is cut only if the text alone is. -/
theorem exists_cutSegments_of_append_blanks {back : List Char} (hback : Text.blankOnly back = true)
    {cs : List Char} : ∀ {quoted escaped : Bool} {first : List Char} {later : List (List Char)},
      cutSegments quoted escaped (cs ++ back) = some (first, later) →
      ∃ first' later', cutSegments quoted escaped cs = some (first', later') ∧
        (∃ blanks, Text.blankOnly blanks = true ∧ first = first' ++ blanks) ∧
        later.map Text.trimChars = later'.map Text.trimChars := by
  induction cs with
  | nil =>
    intro quoted escaped first later h
    rw [List.nil_append, cutSegments_blanks hback] at h
    cases quoted with
    | true => cases h
    | false =>
      cases h
      exact ⟨[], [], rfl, ⟨back, hback, rfl⟩, rfl⟩
  | cons c rest ih =>
    intro quoted escaped first later h
    rw [List.cons_append, cutSegments_cons] at h
    obtain ⟨⟨s, ss⟩, hrest, heq⟩ := Option.map_eq_some_iff.mp h
    obtain ⟨s', ss', hcut, ⟨blanks, hblanks, rfl⟩, hlater⟩ := ih hrest
    rw [cutSegments_cons, hcut, Option.map_some]
    split at heq
    · next hends =>
      cases heq
      rw [if_pos hends]
      refine ⟨[], s' :: ss', rfl, ⟨[], rfl, rfl⟩, ?_⟩
      rw [List.map_cons, List.map_cons, Text.trimChars_append_blanks _ hblanks, hlater]
    · next hends =>
      cases heq
      rw [if_neg hends]
      exact ⟨[c] ++ s', ss', rfl, ⟨blanks, hblanks, (List.append_assoc ..).symm⟩, hlater⟩

/-! ## Pieces without open ends -/

/-- Cutting at semicolons passes over the piece, whatever follows it. -/
def Closed (piece : List Char) : Prop :=
  ∀ rest, cutSegments false false (piece ++ rest)
    = (cutSegments false false rest).map (prepend piece)

theorem Closed.nil : Closed [] := by
  intro rest
  show _ = (cutSegments false false rest).map fun r => r
  rw [Option.map_id', List.nil_append]

theorem Closed.append {a b : List Char} (ha : Closed a) (hb : Closed b) : Closed (a ++ b) := by
  intro rest
  rw [List.append_assoc, ha, hb, prepend_prepend]

theorem Closed.char {c : Char} (hquote : c ≠ '"') (hsemi : c ≠ ';') : Closed [c] := by
  intro rest
  rw [List.singleton_append, cutSegments_cons]
  simp [nextState, endsSegment, hquote, hsemi]

theorem Closed.chars {cs : List Char} (hquote : '"' ∉ cs) (hsemi : ';' ∉ cs) : Closed cs := by
  induction cs with
  | nil => exact Closed.nil
  | cons c rest ih =>
    obtain ⟨hc, hrest⟩ := not_or.mp (fun h => hquote (List.mem_cons.mpr h))
    obtain ⟨hc', hrest'⟩ := not_or.mp (fun h => hsemi (List.mem_cons.mpr h))
    exact (Closed.char (Ne.symm hc) (Ne.symm hc')).append (ih hrest hrest')

theorem Closed.token {s : String} (h : isToken s = true) : Closed s.toList :=
  Closed.chars (not_mem_of_isToken h (by decide)) (not_mem_of_isToken h (by decide))

theorem Closed.blanks {cs : List Char} (h : Text.blankOnly cs = true) : Closed cs :=
  Closed.chars (Text.not_mem_of_blankOnly h (by decide)) (Text.not_mem_of_blankOnly h (by decide))

/-- Behind a closed piece, a semicolon ends it. -/
theorem Closed.cutSegments_semicolon {piece : List Char} (h : Closed piece) (rest : List Char) :
    cutSegments false false (piece ++ ';' :: rest)
      = (cutSegments false false rest).map fun r => (piece, r.1 :: r.2) := by
  rw [h, cutSegments_cons, Option.map_map]
  congr 1
  funext r
  show (piece ++ [], r.1 :: r.2) = _
  rw [List.append_nil]

/-! ## Quotation marks -/

section Quotes

variable (rest : List Char)

theorem cutSegments_opening : cutSegments false false ('"' :: rest)
    = (cutSegments true false rest).map (prepend ['"']) := cutSegments_cons ..

theorem cutSegments_closing : cutSegments true false ('"' :: rest)
    = (cutSegments false false rest).map (prepend ['"']) := cutSegments_cons ..

theorem cutSegments_inside {c : Char} (hquote : c ≠ '"') (hslash : c ≠ '\\') :
    cutSegments true false (c :: rest) = (cutSegments true false rest).map (prepend [c]) := by
  rw [cutSegments_cons]
  simp [nextState, endsSegment, hquote, hslash]

/-- Behind a backslash, any character is passed over. -/
theorem cutSegments_escape (c : Char) : cutSegments true false ('\\' :: c :: rest)
    = (cutSegments true false rest).map (prepend ['\\', c]) := by
  rw [cutSegments, if_pos (by decide), cutSegments, Option.map_map]
  rfl

end Quotes

/-! ## Values -/

/-- What may stand between quotation marks for a text. A backslash may stand before any
character, and must before quotation marks and backslashes. -/
inductive QuotedAs : List Char → List Char → Prop
  | nil : QuotedAs [] []
  | plain {c : Char} {value written : List Char} (hquote : c ≠ '"') (hslash : c ≠ '\\')
      (h : QuotedAs value written) : QuotedAs (c :: value) (c :: written)
  | escaped {value written : List Char} (c : Char) (h : QuotedAs value written) :
      QuotedAs (c :: value) ('\\' :: c :: written)

theorem QuotedAs.unescapeValue {value written : List Char} (h : QuotedAs value written) :
    unescapeValue written = value := by
  induction h with
  | nil => rfl
  | plain hquote hslash h ih =>
    rw [MediaType.unescapeValue, ih]
    · exact fun e _ => hslash e
    · exact fun _ _ e _ => hslash e
  | escaped c h ih => rw [MediaType.unescapeValue, ih]

/-- Inside of quotation marks, the closing one is the first that no backslash takes. -/
theorem QuotedAs.cutSegments {value written : List Char} (h : QuotedAs value written)
    (rest : List Char) : cutSegments true false (written ++ '"' :: rest)
      = (cutSegments false false rest).map (prepend (written ++ ['"'])) := by
  induction h with
  | nil => exact cutSegments_closing rest
  | plain hquote hslash h ih =>
    rw [List.cons_append, cutSegments_inside _ hquote hslash, ih, prepend_prepend]
    rfl
  | escaped c h ih =>
    rw [List.cons_append, List.cons_append, cutSegments_escape, ih, prepend_prepend]
    rfl

/-- What may stand for a value: the value itself if it is a token, or the value between
quotation marks. -/
inductive ValueSpelling (value : String) : List Char → Prop
  | bare (h : isToken value = true) : ValueSpelling value value.toList
  | quoted {written : List Char} (h : QuotedAs value.toList written) :
      ValueSpelling value ('"' :: written ++ ['"'])

section Value

variable {value : String} {written : List Char}

/-- A value is read from each of its spellings, whatever the segment it stands in. -/
theorem ValueSpelling.readValue (h : ValueSpelling value written) (segment : List Char) :
    readValue written segment = .ok value := by
  cases h with
  | bare htoken =>
    rw [MediaType.readValue]
    · rw [String.ofList_toList, if_pos htoken]
    · intro inner hquote
      have hmem : '"' ∈ value.toList := hquote ▸ List.mem_cons_self ..
      exact not_mem_of_isToken htoken (by decide) hmem
  | quoted hwritten =>
    rw [List.cons_append, MediaType.readValue, List.getLast?_append, List.dropLast_concat,
      hwritten.unescapeValue, String.ofList_toList]
    rfl

/-- A spelling begins and ends with a character that is no blank. -/
theorem ValueSpelling.ends (h : ValueSpelling value written) :
    ∃ first last, written.head? = some first ∧ written.getLast? = some last ∧
      Text.isBlank first = false ∧ Text.isBlank last = false := by
  cases h with
  | bare htoken =>
    obtain ⟨hne, -⟩ := isToken_spec htoken
    obtain ⟨hfirst, hlast⟩ := ends_of_isToken htoken
    exact ⟨_, _, List.head?_eq_some_head hne, List.getLast?_eq_some_getLast hne,
      hfirst _ (List.head?_eq_some_head hne), hlast _ (List.getLast?_eq_some_getLast hne)⟩
  | quoted hwritten => exact ⟨'"', '"', rfl, List.getLast?_concat, by decide, by decide⟩

theorem ValueSpelling.trimChars (h : ValueSpelling value written) :
    Text.trimChars written = written := by
  obtain ⟨first, last, hfirst, hlast, hbf, hbl⟩ := h.ends
  exact Text.trimChars_of_ends hfirst hlast hbf hbl

theorem ValueSpelling.closed (h : ValueSpelling value written) : Closed written := by
  cases h with
  | bare htoken => exact Closed.token htoken
  | quoted hwritten =>
    intro rest
    rw [List.cons_append, List.cons_append, List.append_assoc, List.singleton_append,
      cutSegments_opening, hwritten.cutSegments, prepend_prepend]
    rfl

end Value

/-! ## Segments -/

/-- What may stand for a parameter: a name of any case and a value, with blanks around
both. -/
inductive ParameterSpelling (name value : String) : List Char → Prop
  | mk {key : String} {written b₁ b₂ b₃ b₄ : List Char} (hkey : Text.asciiLower key = name)
      (hwritten : ValueSpelling value written) (h₁ : Text.blankOnly b₁ = true)
      (h₂ : Text.blankOnly b₂ = true) (h₃ : Text.blankOnly b₃ = true)
      (h₄ : Text.blankOnly b₄ = true) :
      ParameterSpelling name value (b₁ ++ (key.toList ++ b₂ ++ '=' :: (b₃ ++ written)) ++ b₄)

/-- What may follow the base: a segment for each of the parameters, in this order, and blank
segments anywhere. -/
inductive SegmentsSpelling : List (String × String) → List Char → Prop
  | nil : SegmentsSpelling [] []
  | blank {ps : List (String × String)} {blanks cs : List Char}
      (hblanks : Text.blankOnly blanks = true) (h : SegmentsSpelling ps cs) :
      SegmentsSpelling ps (';' :: (blanks ++ cs))
  | parameter {p : String × String} {ps : List (String × String)} {piece cs : List Char}
      (hpiece : ParameterSpelling p.1 p.2 piece) (h : SegmentsSpelling ps cs) :
      SegmentsSpelling (p :: ps) (';' :: (piece ++ cs))

/-- A segment is read without the blanks around it. -/
theorem readSegment_trimChars (r : Reading) (segment : List Char) :
    r.readSegment (Text.trimChars segment) = r.readSegment segment := by
  unfold Reading.readSegment
  rw [Text.trimChars_trimChars]

/-- A segment is blank, or a name and a value are read from it. -/
theorem readSegment_eq_ok {r r' : Reading} {segment : List Char} :
    r.readSegment segment = .ok r' ↔ Text.trimChars segment = [] ∧ r' = r ∨
      ∃ name written value, cutAt '=' (Text.trimChars segment) = some (name, written) ∧
        readValue (Text.trimChars written) (Text.trimChars segment) = .ok value ∧
        r.put (Text.asciiLower (String.ofList (Text.trimChars name))) value = .ok r' := by
  unfold Reading.readSegment
  dsimp only
  constructor
  · intro h
    split at h
    · next hempty =>
      cases h
      exact Or.inl ⟨List.isEmpty_iff.mp hempty, rfl⟩
    · split at h
      · cases h
      · next name written hcut =>
        split at h
        · cases h
        · next value hvalue => exact Or.inr ⟨name, written, value, hcut, hvalue, h⟩
  · rintro (⟨hempty, rfl⟩ | ⟨name, written, value, hcut, hvalue, hput⟩)
    · rw [hempty, if_pos List.isEmpty_nil]
    · have hne : ¬(Text.trimChars segment).isEmpty = true := by
        intro hempty
        rw [List.isEmpty_iff.mp hempty] at hcut
        cases hcut
      rw [if_neg hne, hcut]
      dsimp only
      rw [hvalue]
      exact hput

section Segments

variable {name value : String} {piece : List Char}

/-- **A parameter is read from each of its spellings.** -/
theorem ParameterSpelling.readSegment (h : ParameterSpelling name value piece)
    (hname : isKeptName name = true) (r : Reading) : r.readSegment piece = r.put name value := by
  cases h with
  | @mk key written b₁ b₂ b₃ b₄ hkey hwritten h₁ h₂ h₃ h₄ =>
    have htoken : isToken key = true := isKeptName_asciiLower.mp (hkey.symm ▸ hname)
    obtain ⟨hkeyFirst, -⟩ := ends_of_isToken htoken
    obtain ⟨-, last, -, hlast, -, hblank⟩ := hwritten.ends
    -- The name begins and the value ends with a character that is no blank.
    have hfirst := List.head?_eq_some_head (isToken_spec htoken).1
    have hcore : Text.trimChars (key.toList ++ b₂ ++ '=' :: (b₃ ++ written))
        = key.toList ++ b₂ ++ '=' :: (b₃ ++ written) := by
      refine Text.trimChars_of_ends ?_ ?_ (hkeyFirst _ hfirst) hblank
      · rw [List.append_assoc, List.head?_append, hfirst, Option.some_or]
      · rw [List.getLast?_append, List.getLast?_cons, List.getLast?_append, hlast]
        rfl
    have htrim : Text.trimChars (b₁ ++ (key.toList ++ b₂ ++ '=' :: (b₃ ++ written)) ++ b₄)
        = key.toList ++ b₂ ++ '=' :: (b₃ ++ written) := by
      rw [Text.trimChars_append_blanks _ h₄, Text.trimChars_blanks_append h₁, hcore]
    have hcut : cutAt '=' (key.toList ++ b₂ ++ '=' :: (b₃ ++ written))
        = some (key.toList ++ b₂, b₃ ++ written) := by
      refine cutAt_append (fun hmem => ?_) _
      rcases List.mem_append.mp hmem with hmem | hmem
      · exact not_mem_of_isToken htoken (by decide) hmem
      · exact Text.not_mem_of_blankOnly h₂ (by decide) hmem
    have hkeyTrim : Text.trimChars (key.toList ++ b₂) = key.toList := by
      rw [Text.trimChars_append_blanks _ h₂, trimChars_of_isToken htoken]
    have hvalueTrim : Text.trimChars (b₃ ++ written) = written := by
      rw [Text.trimChars_blanks_append h₃, hwritten.trimChars]
    rw [← readSegment_trimChars, htrim]
    unfold Reading.readSegment
    dsimp only
    rw [hcore, hcut, if_neg (by simp)]
    dsimp only
    rw [hvalueTrim, hwritten.readValue, hkeyTrim, String.ofList_toList, hkey]

theorem ParameterSpelling.closed (h : ParameterSpelling name value piece)
    (hname : isKeptName name = true) : Closed piece := by
  cases h with
  | @mk key written b₁ b₂ b₃ b₄ hkey hwritten h₁ h₂ h₃ h₄ =>
    have htoken : isToken key = true := isKeptName_asciiLower.mp (hkey.symm ▸ hname)
    have hequals : Closed ['='] := Closed.char (by decide) (by decide)
    have hafter : Closed (['='] ++ (b₃ ++ written)) :=
      hequals.append ((Closed.blanks h₃).append hwritten.closed)
    exact ((Closed.blanks h₁).append (((Closed.token htoken).append (Closed.blanks h₂)).append
      hafter)).append (Closed.blanks h₄)

/-- **The reader gets the segments that were spelled**, and what it reads from them is the
parameters. -/
theorem SegmentsSpelling.exists_segments {ps : List (String × String)} {cs : List Char}
    (h : SegmentsSpelling ps cs) : (∀ p ∈ ps, isKeptName p.1 = true) →
    ∃ segments, (∀ front, Closed front →
        cutSegments false false (front ++ cs) = some (front, segments)) ∧
      ∀ r : Reading, segments.foldlM Reading.readSegment r = r.putAll ps := by
  induction h with
  | nil =>
    intro _
    refine ⟨[], fun front hfront => ?_, fun r => rfl⟩
    rw [hfront]
    show some (front ++ [], []) = _
    rw [List.append_nil]
  | @blank ps blanks cs hblanks h ih =>
    intro hps
    obtain ⟨segments, hcut, hread⟩ := ih hps
    refine ⟨blanks :: segments, fun front hfront => ?_, fun r => ?_⟩
    · rw [hfront.cutSegments_semicolon, hcut blanks (Closed.blanks hblanks)]
      rfl
    · have hblank : r.readSegment blanks = .ok r :=
        readSegment_eq_ok.mpr (Or.inl ⟨Text.trimChars_of_blankOnly hblanks, rfl⟩)
      rw [List.foldlM_cons, hblank, ok_bind, hread]
  | @parameter p ps piece cs hpiece h ih =>
    intro hps
    obtain ⟨hp, hlater⟩ := List.forall_mem_cons.mp hps
    obtain ⟨segments, hcut, hread⟩ := ih hlater
    refine ⟨piece :: segments, fun front hfront => ?_, fun r => ?_⟩
    · rw [hfront.cutSegments_semicolon, hcut piece (hpiece.closed hp)]
      rfl
    · rw [List.foldlM_cons, hpiece.readSegment hp, Reading.putAll, List.foldlM_cons]
      congr 1
      funext next
      exact hread next

end Segments

/-! ## Texts -/

/-- A text is cut, and its base and its segments are read. -/
theorem parse_eq_ok {s : String} {m : MediaType} : parse s = .ok m ↔
    ∃ base segments primary sub r,
      cutSegments false false (Text.trimChars s.toList) = some (base, segments) ∧
      cutAt '/' base = some (primary, sub) ∧
      segments.foldlM Reading.readSegment .start = .ok r ∧
      ofParts (String.ofList primary) (String.ofList sub) r.version r.encoding r.others
        = .ok m := by
  unfold parse
  dsimp only
  constructor
  · intro h
    split at h
    · cases h
    · split at h
      · cases h
      · next base segments hcut =>
        split at h
        · cases h
        · next primary sub hbase =>
          obtain ⟨r, hr, hparts⟩ := bind_eq_ok.mp h
          exact ⟨base, segments, primary, sub, r, hcut, hbase, hr, hparts⟩
  · rintro ⟨base, segments, primary, sub, r, hcut, hbase, hr, hparts⟩
    split
    · next hempty =>
      -- An empty text has no base.
      rw [List.isEmpty_iff.mp hempty] at hcut
      cases hcut
      cases hbase
    · rw [hcut]
      dsimp only
      rw [hbase]
      exact bind_eq_ok.mpr ⟨r, hr, hparts⟩

theorem exists_cutAt {x : Char} {cs : List Char} (h : x ∈ cs) :
    ∃ front after, cutAt x cs = some (front, after) := by
  induction cs with
  | nil => cases h
  | cons c rest ih =>
    rw [cutAt]
    split
    · exact ⟨_, _, rfl⟩
    · next hc =>
      rcases List.mem_cons.mp h with hsame | hmem
      · exact absurd hsame.symm hc
      · obtain ⟨front, after, hcut⟩ := ih hmem
        exact ⟨_, _, by rw [hcut]; rfl⟩

/-- Blanks around the base make no difference to what is left of its parts. -/
theorem exists_cutAt_of_blanks {x : Char} (hx : Text.isBlank x = false) {f b cs : List Char}
    (hf : Text.blankOnly f = true) (hb : Text.blankOnly b = true) {front after : List Char}
    (h : cutAt x (f ++ (cs ++ b)) = some (front, after)) :
    ∃ front' after', cutAt x cs = some (front', after') ∧ front = f ++ front' ∧
      after = after' ++ b := by
  have hmem : x ∈ f ++ (cs ++ b) := by
    rw [(cutAt_eq_some.mp h).1]
    exact List.mem_append_right _ (List.mem_cons_self ..)
  have hnotFront : x ∉ f := Text.not_mem_of_blankOnly hf hx
  have hinside : x ∈ cs := by
    rcases List.mem_append.mp hmem with hmem | hmem
    · exact absurd hmem hnotFront
    · rcases List.mem_append.mp hmem with hmem | hmem
      · exact hmem
      · exact absurd hmem (Text.not_mem_of_blankOnly hb hx)
  obtain ⟨front', after', hcut⟩ := exists_cutAt hinside
  obtain ⟨htext, hnot⟩ := cutAt_eq_some.mp hcut
  have hsame : cutAt x (f ++ (cs ++ b)) = some (f ++ front', after' ++ b) := by
    refine cutAt_eq_some.mpr ⟨by rw [htext]; simp, fun hmem => ?_⟩
    rcases List.mem_append.mp hmem with hmem | hmem
    · exact hnotFront hmem
    · exact hnot hmem
  rw [h] at hsame
  cases hsame
  exact ⟨front', after', hcut, rfl, rfl⟩

theorem foldlM_readSegment_trimChars (segments : List (List Char)) (r : Reading) :
    (segments.map Text.trimChars).foldlM Reading.readSegment r
      = segments.foldlM Reading.readSegment r := by
  rw [List.foldlM_map]
  congr 1
  funext next segment
  exact readSegment_trimChars next segment

theorem ofParts_congr {primary primary' sub sub' : String} {version encoding : Option String}
    {parameters : List (String × String)} (hprimary : Text.trim primary = Text.trim primary')
    (hsub : Text.trim sub = Text.trim sub') :
    ofParts primary sub version encoding parameters
      = ofParts primary' sub' version encoding parameters := by
  unfold ofParts readToken
  rw [hprimary, hsub]

/-- **Blanks around a text make no difference**, so it may be cut before they are dropped. -/
theorem parse_of_cutSegments {s : String} {base primary sub : List Char}
    {segments : List (List Char)} {r : Reading} {m : MediaType}
    (hcut : cutSegments false false s.toList = some (base, segments))
    (hbase : cutAt '/' base = some (primary, sub))
    (hread : segments.foldlM Reading.readSegment .start = .ok r)
    (hparts : ofParts (String.ofList primary) (String.ofList sub) r.version r.encoding r.others
      = .ok m) : parse s = .ok m := by
  obtain ⟨f, b, hf, hb, htext⟩ := Text.exists_trimChars s.toList
  rw [htext, List.append_assoc, Closed.blanks hf] at hcut
  obtain ⟨⟨first, later⟩, hinner, heq⟩ := Option.map_eq_some_iff.mp hcut
  cases heq
  obtain ⟨first', later', hcut', ⟨blanks, hblanks, rfl⟩, hlater⟩ :=
    exists_cutSegments_of_append_blanks hb hinner
  obtain ⟨primary', sub', hbase', rfl, rfl⟩ :=
    exists_cutAt_of_blanks (by decide) hf hblanks hbase
  refine parse_eq_ok.mpr ⟨first', later', primary', sub', r, hcut', hbase', ?_, ?_⟩
  · rw [← foldlM_readSegment_trimChars, ← hlater, foldlM_readSegment_trimChars]
    exact hread
  · rw [← hparts]
    refine ofParts_congr ?_ ?_
    · simp only [Text.trim, String.toList_ofList, Text.trimChars_blanks_append hf]
    · simp only [Text.trim, String.toList_ofList, Text.trimChars_append_blanks _ hblanks]

/-- A parameter whose name is in small letters. -/
def smallPair (p : String × String) : String × String :=
  (Text.asciiLower p.1, p.2)

/-- What may stand for a media type of these parts: type and subtype of any case, then a
segment for each of the parameters, in any order, and blank segments anywhere among them,
all with blanks around the separators and at both ends. -/
inductive Spells (primary sub : String) (ps : List (String × String)) : String → Prop
  | mk {type subtype : String} {order : List (String × String)} {segments b₁ b₂ b₃ b₄ : List Char}
      (htype : Text.sameIgnoringCase type primary = true)
      (hsubtype : Text.sameIgnoringCase subtype sub = true)
      (horder : order.Perm (ps.map smallPair)) (hsegments : SegmentsSpelling order segments)
      (h₁ : Text.blankOnly b₁ = true) (h₂ : Text.blankOnly b₂ = true)
      (h₃ : Text.blankOnly b₃ = true) (h₄ : Text.blankOnly b₄ = true) :
      Spells primary sub ps (String.ofList (b₁ ++ (type.toList ++ b₂) ++
        '/' :: (b₃ ++ (subtype.toList ++ b₄)) ++ segments))

/-- **Every spelling is read**, as a media type of the parts that it spells. -/
theorem exists_parse_of_spells {primary sub s : String} {ps : List (String × String)}
    (hprimary : isToken primary = true) (hsub : isToken sub = true)
    (hps : ∀ p ∈ ps, isToken p.1 = true) (hnodup : ((ps.map smallPair).map (·.1)).Nodup)
    (h : Spells primary sub ps s) :
    ∃ m, parse s = .ok m ∧ m.primary.text = Text.asciiLower primary ∧
      m.sub.text = Text.asciiLower sub ∧ ∀ x, x ∈ m.allParameters ↔ x ∈ ps.map smallPair := by
  cases h with
  | @mk type subtype order segments b₁ b₂ b₃ b₄ htype hsubtype horder hsegments h₁ h₂ h₃ h₄ =>
    have hsameType : Text.asciiLower type = Text.asciiLower primary := of_decide_eq_true htype
    have hsameSubtype : Text.asciiLower subtype = Text.asciiLower sub := of_decide_eq_true hsubtype
    have htypeToken : isToken type = true := by
      rw [← isToken_asciiLower, hsameType, isToken_asciiLower, hprimary]
    have hsubtypeToken : isToken subtype = true := by
      rw [← isToken_asciiLower, hsameSubtype, isToken_asciiLower, hsub]
    have hkept : ∀ x ∈ order, isKeptName x.1 = true := by
      intro x hx
      obtain ⟨p, hp, rfl⟩ := List.mem_map.mp (horder.mem_iff.mp hx)
      exact isKeptName_asciiLower.mpr (hps p hp)
    have hnames : (order.map (·.1)).Nodup := (horder.map _).nodup_iff.mpr hnodup
    -- The base is a closed piece, and cut at the only slash in it.
    have hbase : Closed (b₁ ++ (type.toList ++ b₂) ++ '/' :: (b₃ ++ (subtype.toList ++ b₄))) :=
      ((Closed.blanks h₁).append ((Closed.token htypeToken).append (Closed.blanks h₂))).append
        ((Closed.char (c := '/') (by decide) (by decide)).append ((Closed.blanks h₃).append
          ((Closed.token hsubtypeToken).append (Closed.blanks h₄))))
    have hslash : '/' ∉ b₁ ++ (type.toList ++ b₂) := by
      simp only [List.mem_append, not_or]
      exact ⟨Text.not_mem_of_blankOnly h₁ (by decide), not_mem_of_isToken htypeToken (by decide),
        Text.not_mem_of_blankOnly h₂ (by decide)⟩
    have htrim : ∀ {token : String} {f b : List Char}, isToken token = true →
        Text.blankOnly f = true → Text.blankOnly b = true →
        Text.trim (String.ofList (f ++ (token.toList ++ b))) = token := by
      intro token f b htoken hf hb
      rw [Text.trim, String.toList_ofList, Text.trimChars_blanks_append hf,
        Text.trimChars_append_blanks _ hb, trimChars_of_isToken htoken, String.ofList_toList]
    have htypeTrim := htrim htypeToken h₁ h₂
    have hsubtypeTrim := htrim hsubtypeToken h₃ h₄
    obtain ⟨pieces, hcut, hread⟩ := hsegments.exists_segments hkept
    obtain ⟨r, m, hr, hparts, hmprimary, hmsub, hmem⟩ :=
      exists_ofParts (htypeTrim.symm ▸ htypeToken) (hsubtypeTrim.symm ▸ hsubtypeToken) hkept hnames
    refine ⟨m, ?_, ?_, ?_, fun x => (hmem x).trans horder.mem_iff⟩
    · refine parse_of_cutSegments ?_ (cutAt_append hslash _) ((hread .start).trans hr) hparts
      rw [String.toList_ofList]
      exact hcut _ hbase
    · rw [hmprimary, htypeTrim, hsameType]
    · rw [hmsub, hsubtypeTrim, hsameSubtype]

end EventWire.MediaType

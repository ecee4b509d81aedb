import EventWire.Proofs.MediaType.Spelling

/-!
# What stands for a value

Two readers decide what is quoted. The one that cuts a text at semicolons opens and closes with
each quotation mark; the one that reads a value takes the first and the last away, and leaves
those between them in the value. So a value is accepted exactly if it is a token, or consists of
quoted runs with anything but semicolons between them (`QuotedRuns`). One complete quoted text is
the case of a single run.

A piece is `Uncut` if the first reader finds neither semicolons nor an open end in it. All
segments are (`uncut_of_cutSegments`), and so is what is left of one behind its name
(`uncut_of_append`). An uncut piece that begins and ends with quotation marks is made of runs
(`exists_quotedRuns`).
-/

namespace EventWire.MediaType

/-! ## Quoted texts and runs of them -/

/-- True when the first quotation mark that no backslash takes is the last character. -/
def endsAtQuote : (escaped : Bool) → List Char → Bool
  | _, [] => false
  | true, _ :: rest => endsAtQuote false rest
  | false, c :: rest =>
    if c = '\\' then endsAtQuote true rest
    else if c = '"' then rest.isEmpty
    else endsAtQuote false rest

/-- True for one complete quoted text. -/
def isQuotedText : List Char → Bool
  | '"' :: rest => endsAtQuote false rest
  | _ => false

/-- Quoted runs with texts between them that hold neither quotation marks nor semicolons. The
number is how many runs follow the first. -/
inductive QuotedRuns : Nat → List Char → Prop
  | last {value written : List Char} (h : QuotedAs value written) :
      QuotedRuns 0 ('"' :: (written ++ ['"']))
  | more {n : Nat} {value written between rest : List Char} (h : QuotedAs value written)
      (hquote : '"' ∉ between) (hsemi : ';' ∉ between) (hrest : QuotedRuns n rest) :
      QuotedRuns (n + 1) ('"' :: (written ++ '"' :: (between ++ rest)))

theorem QuotedAs.endsAtQuote {value written : List Char} (h : QuotedAs value written)
    (rest : List Char) : endsAtQuote false (written ++ '"' :: rest) = rest.isEmpty := by
  induction h with
  | nil => rfl
  | plain hquote hslash h ih =>
    rw [List.cons_append, MediaType.endsAtQuote, if_neg hslash, if_neg hquote, ih]
  | escaped c h ih =>
    rw [List.cons_append, List.cons_append, MediaType.endsAtQuote, if_pos rfl,
      MediaType.endsAtQuote, ih]

section Runs

variable {n : Nat} {v : List Char}

/-- Runs begin and end with quotation marks. -/
theorem QuotedRuns.ends (h : QuotedRuns n v) :
    ∃ inner, v = '"' :: inner ∧ inner.getLast? = some '"' := by
  induction h with
  | last h => exact ⟨_, rfl, List.getLast?_concat⟩
  | more h hquote hsemi hrest ih =>
    obtain ⟨inner, rfl, hlast⟩ := ih
    refine ⟨_, rfl, ?_⟩
    rw [List.getLast?_append, List.getLast?_cons, List.getLast?_append, List.getLast?_cons, hlast]
    rfl

/-- One complete quoted text is a run that none follows. -/
theorem QuotedRuns.isQuotedText_iff (h : QuotedRuns n v) : isQuotedText v = true ↔ n = 0 := by
  cases h with
  | last h =>
    rw [isQuotedText, h.endsAtQuote]
    exact iff_of_true rfl rfl
  | more h hquote hsemi hrest =>
    obtain ⟨inner, rfl, -⟩ := hrest.ends
    rw [isQuotedText, h.endsAtQuote]
    refine iff_of_false (fun hempty => ?_) (Nat.succ_ne_zero _)
    rw [List.isEmpty_iff] at hempty
    exact List.append_ne_nil_of_right_ne_nil _ (List.cons_ne_nil _ _) hempty

/-- Cutting at semicolons passes over runs. -/
theorem QuotedRuns.closed (h : QuotedRuns n v) : Closed v := by
  induction h with
  | @last value written h =>
    have hfirst : ValueSpelling (String.ofList value) ('"' :: written ++ ['"']) :=
      .quoted (by rwa [String.toList_ofList])
    exact hfirst.closed
  | @more n value written between rest h hquote hsemi hrest ih =>
    have hfirst : ValueSpelling (String.ofList value) ('"' :: written ++ ['"']) :=
      .quoted (by rwa [String.toList_ofList])
    have hall := hfirst.closed.append ((Closed.chars hquote hsemi).append ih)
    simpa using hall

end Runs

/-! ## Pieces that are not cut -/

/-- There is no semicolon outside of quotation marks in the piece, and these are closed. -/
def Uncut (piece : List Char) : Prop :=
  cutSegments false false piece = some (piece, [])

theorem Closed.uncut {piece : List Char} (h : Closed piece) : Uncut piece := by
  have hself := h []
  rw [List.append_nil] at hself
  rw [Uncut, hself]
  show some (piece ++ [], []) = _
  rw [List.append_nil]

/-- Where nothing is cut away, all is left. -/
theorem eq_of_cutSegments {cs : List Char} : ∀ {quoted escaped : Bool} {first : List Char},
    cutSegments quoted escaped cs = some (first, []) → first = cs := by
  induction cs with
  | nil =>
    intro quoted escaped first h
    rw [cutSegments] at h
    split at h
    · cases h
    · cases h
      rfl
  | cons c rest ih =>
    intro quoted escaped first h
    rw [cutSegments_cons] at h
    obtain ⟨⟨s, ss⟩, hrest, heq⟩ := Option.map_eq_some_iff.mp h
    split at heq
    · cases heq
    · cases heq
      rw [ih hrest]
      rfl

/-- **No segment is cut again.** The first one is read in the state that the text was read in,
and the others from the start. -/
theorem uncut_of_cutSegments {cs : List Char} : ∀ {quoted escaped : Bool} {first : List Char}
    {later : List (List Char)}, cutSegments quoted escaped cs = some (first, later) →
      cutSegments quoted escaped first = some (first, []) ∧ ∀ piece ∈ later, Uncut piece := by
  induction cs with
  | nil =>
    intro quoted escaped first later h
    rw [cutSegments] at h
    split at h
    · cases h
    · next hquoted =>
      cases h
      rw [cutSegments, if_neg hquoted]
      exact ⟨rfl, fun _ hmem => absurd hmem List.not_mem_nil⟩
  | cons c rest ih =>
    intro quoted escaped first later h
    rw [cutSegments_cons] at h
    obtain ⟨⟨s, ss⟩, hrest, heq⟩ := Option.map_eq_some_iff.mp h
    obtain ⟨hfirst, hlater⟩ := ih hrest
    split at heq
    · next hends =>
      -- A segment ends outside of quotation marks only, so the next one begins there.
      cases heq
      obtain ⟨⟨hc, hquoted⟩, hescaped⟩ :
          (c = ';' ∧ quoted = false) ∧ escaped = false := by simpa [endsSegment] using hends
      rw [hc, hquoted, hescaped] at hfirst
      rw [hquoted]
      exact ⟨rfl, List.forall_mem_cons.mpr ⟨hfirst, hlater⟩⟩
    · next hends =>
      cases heq
      refine ⟨?_, hlater⟩
      show cutSegments quoted escaped (c :: s) = _
      rw [cutSegments_cons, hfirst, Option.map_some, if_neg hends]
      rfl

/-- Behind a part without quotation marks, an uncut piece goes on uncut. -/
theorem uncut_of_append {front cs : List Char} (hfront : '"' ∉ front)
    (h : Uncut (front ++ cs)) : ';' ∉ front ∧ Uncut cs := by
  induction front with
  | nil => exact ⟨List.not_mem_nil, h⟩
  | cons c front ih =>
    obtain ⟨hc, hfront⟩ := not_or.mp (fun hmem => hfront (List.mem_cons.mpr hmem))
    have hstate : nextState false false c = (false, false) := by
      simp [nextState, Ne.symm hc]
    rw [Uncut, List.cons_append, cutSegments_cons, hstate] at h
    obtain ⟨⟨s, ss⟩, hrest, heq⟩ := Option.map_eq_some_iff.mp h
    split at heq
    · cases heq
    · next hends =>
      cases heq
      obtain ⟨hsemi, hcs⟩ := ih hfront hrest
      have hne : c ≠ ';' := by simpa [endsSegment] using hends
      exact ⟨List.not_mem_cons_of_ne_of_not_mem (Ne.symm hne) hsemi, hcs⟩

theorem uncut_trimChars {cs : List Char} (h : Uncut cs) : Uncut (Text.trimChars cs) := by
  obtain ⟨f, b, hf, hb, htext⟩ := Text.exists_trimChars cs
  rw [htext, List.append_assoc] at h
  obtain ⟨-, hbehind⟩ := uncut_of_append (Text.not_mem_of_blankOnly hf (by decide)) h
  obtain ⟨first, later, hcut, -, hlater⟩ := exists_cutSegments_of_append_blanks hb hbehind
  rw [List.map_eq_nil_iff.mp hlater.symm] at hcut
  rw [Uncut, hcut, eq_of_cutSegments hcut]

/-- Behind an opening quotation mark, there is a closing one. -/
theorem exists_closing (cs : List Char) : ∀ {r : List Char × List (List Char)},
    cutSegments true false cs = some r →
      ∃ value written rest, QuotedAs value written ∧ cs = written ++ '"' :: rest := by
  -- A backslash takes the next character, so the induction is the one of taking them away.
  induction cs using unescapeValue.induct with
  | case1 =>
    intro r h
    cases h
  | case2 =>
    intro r h
    cases h
  | case3 c rest ih =>
    intro r h
    rw [cutSegments_escape] at h
    obtain ⟨r', hrest, -⟩ := Option.map_eq_some_iff.mp h
    obtain ⟨value, written, rest', hquoted, rfl⟩ := ih hrest
    exact ⟨_, _, rest', .escaped c hquoted, rfl⟩
  | case4 c rest hend hescape ih =>
    intro r h
    by_cases hquote : c = '"'
    · exact ⟨[], [], rest, .nil, by rw [hquote, List.nil_append]⟩
    · have hslash : c ≠ '\\' := by
        intro hc
        cases rest with
        | nil => exact hend hc rfl
        | cons d rest => exact hescape d rest hc rfl
      rw [cutSegments_inside _ hquote hslash] at h
      obtain ⟨r', hrest, -⟩ := Option.map_eq_some_iff.mp h
      obtain ⟨value, written, rest', hquoted, rfl⟩ := ih hrest
      exact ⟨_, _, rest', .plain hquote hslash hquoted, rfl⟩

/-- **An uncut piece between quotation marks is made of runs.** -/
theorem exists_quotedRuns {inner : List Char} (h : Uncut ('"' :: inner))
    (hlast : inner.getLast? = some '"') : ∃ n, QuotedRuns n ('"' :: inner) := by
  rw [Uncut, cutSegments_opening] at h
  obtain ⟨r, hinner, heq⟩ := Option.map_eq_some_iff.mp h
  obtain ⟨value, written, rest, hquoted, rfl⟩ := exists_closing inner hinner
  rw [hquoted.cutSegments] at hinner
  obtain ⟨⟨s, ss⟩, hrest, rfl⟩ := Option.map_eq_some_iff.mp hinner
  obtain rfl : ss = [] := (Prod.mk.inj heq).2
  have huncut : Uncut rest := by rw [Uncut, hrest, eq_of_cutSegments hrest]
  cases rest with
  | nil => exact ⟨0, .last hquoted⟩
  | cons c rest =>
    have hlastRest : (c :: rest).getLast? = some '"' := by
      rwa [List.getLast?_append_of_ne_nil _ (List.cons_ne_nil _ _), List.getLast?_cons_cons]
        at hlast
    -- The next run begins at the next quotation mark, and there is one, as the last character.
    obtain ⟨between, inner', hcut⟩ := exists_cutAt (List.mem_of_getLast? hlastRest)
    obtain ⟨htext, hquote⟩ := cutAt_eq_some.mp hcut
    rw [htext] at huncut hlastRest ⊢
    obtain ⟨hsemi, huncut'⟩ := uncut_of_append hquote huncut
    have hlast' : inner'.getLast? = some '"' := by
      cases inner' with
      | nil => cases huncut'
      | cons d inner' =>
        rwa [List.getLast?_append_of_ne_nil _ (List.cons_ne_nil _ _), List.getLast?_cons_cons]
          at hlastRest
    have hshort : inner'.length < (written ++ '"' :: c :: rest).length := by
      have hlength := congrArg List.length htext
      simp only [List.length_append, List.length_cons] at hlength ⊢
      omega
    obtain ⟨n, hruns⟩ := exists_quotedRuns huncut' hlast'
    exact ⟨n + 1, .more hquoted hquote hsemi hruns⟩
termination_by inner.length

/-! ## Written values -/

/-- The value that is taken for what is written. -/
def takenValue : List Char → String
  | '"' :: inner => String.ofList (unescapeValue inner.dropLast)
  | value => String.ofList value

/-- The parameters as they are written, without the blanks around names and values. -/
def writtenParameters (s : String) : List (List Char × List Char) :=
  match cutSegments false false (Text.trimChars s.toList) with
  | none => []
  | some (_, segments) => segments.filterMap fun segment =>
    (cutAt '=' (Text.trimChars segment)).map fun (name, value) =>
      (Text.trimChars name, Text.trimChars value)

/-- **A value is read** if it is a token or begins and ends with quotation marks. -/
theorem readValue_eq_ok {written segment : List Char} {value : String} :
    readValue written segment = .ok value ↔ value = takenValue written ∧
      (isToken (String.ofList written) = true ∨
        ∃ inner, written = '"' :: inner ∧ inner.getLast? = some '"') := by
  unfold readValue
  split
  · next inner =>
    -- What begins with a quotation mark is no token.
    have hnot : ¬isToken (String.ofList ('"' :: inner)) = true := by
      intro htoken
      refine not_mem_of_isToken htoken (d := '"') (by decide) ?_
      rw [String.toList_ofList]
      exact List.mem_cons_self ..
    rw [or_iff_right hnot]
    constructor
    · intro h
      split at h
      · next hlast =>
        cases h
        exact ⟨rfl, inner, rfl, hlast⟩
      · cases h
    · rintro ⟨rfl, inner', heq, hlast⟩
      cases heq
      rw [if_pos hlast, takenValue]
  · next hquote =>
    have hnot : ¬∃ inner, written = '"' :: inner ∧ inner.getLast? = some '"' := by
      rintro ⟨inner, hwritten, -⟩
      exact hquote inner hwritten
    have htaken : takenValue written = String.ofList written := by
      rw [takenValue]
      exact hquote
    rw [or_iff_left hnot, htaken]
    constructor
    · intro h
      split at h
      · next htoken =>
        cases h
        exact ⟨rfl, htoken⟩
      · cases h
    · rintro ⟨rfl, htoken⟩
      rw [if_pos htoken]

/-- What a value that is read looks like, when it was not cut. -/
theorem exists_quotedRuns_of_readValue {written segment : List Char} {value : String}
    (h : readValue written segment = .ok value) (huncut : Uncut written) :
    isToken (String.ofList written) = true ∨ ∃ n, QuotedRuns n written := by
  obtain ⟨-, htoken | ⟨inner, rfl, hlast⟩⟩ := readValue_eq_ok.mp h
  · exact Or.inl htoken
  · exact Or.inr (exists_quotedRuns huncut hlast)

/-- **Reading segments keeps what is in each.** The names are small and without blanks. -/
theorem pairs_of_readSegments {segments : List (List Char)} : ∀ {r r' : Reading},
    segments.foldlM Reading.readSegment r = .ok r' →
      (∀ x ∈ r.pairs, x ∈ r'.pairs) ∧
      (∀ x ∈ r'.others, x ∈ r.others ∨ keptPair x = x) ∧
      ∀ segment ∈ segments, ∀ name written,
        cutAt '=' (Text.trimChars segment) = some (name, written) →
        ∃ value, readValue (Text.trimChars written) (Text.trimChars segment) = .ok value ∧
          (Text.asciiLower (String.ofList (Text.trimChars name)), value) ∈ r'.pairs := by
  induction segments with
  | nil =>
    intro r r' h
    cases h
    exact ⟨fun _ hx => hx, fun _ hx => Or.inl hx, fun _ hmem => absurd hmem List.not_mem_nil⟩
  | cons segment rest ih =>
    intro r r' h
    rw [List.foldlM_cons] at h
    obtain ⟨next, hnext, hrest⟩ := bind_eq_ok.mp h
    obtain ⟨hkeeps, hothers, hlater⟩ := ih hrest
    rcases readSegment_eq_ok.mp hnext with
      ⟨hempty, rfl⟩ | ⟨name, written, value, hcut, hvalue, hput⟩
    · refine ⟨hkeeps, hothers, List.forall_mem_cons.mpr ⟨fun name written hcut => ?_, hlater⟩⟩
      rw [hempty] at hcut
      cases hcut
    · obtain ⟨hmem, hnextOthers⟩ := Reading.put_spec hput
      refine ⟨fun x hx => hkeeps x ((hmem x).mpr (Or.inl hx)), fun x hx => ?_,
        List.forall_mem_cons.mpr ⟨fun name' written' hcut' => ?_, hlater⟩⟩
      · rcases hothers x hx with hx | hkept
        · rw [hnextOthers, List.mem_append] at hx
          refine hx.imp_right fun hx => ?_
          obtain rfl := List.mem_singleton.mp (List.mem_filter.mp hx).1
          rw [keptPair, ← Text.asciiLower_trim, Text.trim, String.toList_ofList,
            Text.trimChars_trimChars, Text.asciiLower_asciiLower]
        · exact Or.inr hkept
      · rw [hcut] at hcut'
        cases hcut'
        exact ⟨value, hvalue, hkeeps _ ((hmem _).mpr (Or.inr rfl))⟩

/-! ## Accepted values -/

theorem mem_writtenParameters {s : String} {base : List Char} {segments : List (List Char)}
    (hcut : cutSegments false false (Text.trimChars s.toList) = some (base, segments))
    {name value : List Char} : (name, value) ∈ writtenParameters s ↔
      ∃ segment ∈ segments, ∃ before behind,
        cutAt '=' (Text.trimChars segment) = some (before, behind) ∧
          Text.trimChars before = name ∧ Text.trimChars behind = value := by
  unfold writtenParameters
  rw [hcut]
  simp only [List.mem_filterMap, Option.map_eq_some_iff, Prod.exists, Prod.mk.injEq]

/-- **Each written value is taken**, under its name, and it is a token or made of runs. -/
theorem written_of_parse {s : String} {m : MediaType} (h : parse s = .ok m)
    {name value : List Char} (hx : (name, value) ∈ writtenParameters s) :
    (Text.asciiLower (String.ofList name), takenValue value) ∈ m.allParameters ∧
      (isToken (String.ofList value) = true ∨ ∃ n, QuotedRuns n value) := by
  obtain ⟨base, segments, primary, sub, r, hcut, -, hread, hparts⟩ := parse_eq_ok.mp h
  obtain ⟨segment, hsegment, before, behind, hequals, rfl, rfl⟩ :=
    (mem_writtenParameters hcut).mp hx
  obtain ⟨-, hothers, hpairs⟩ := pairs_of_readSegments hread
  obtain ⟨value, hvalue, hmem⟩ := hpairs segment hsegment before behind hequals
  have hkept : ∀ x ∈ r.others, keptPair x = x := fun x hx =>
    (hothers x hx).resolve_left List.not_mem_nil
  have hmemAll := (mem_allParameters_of_ofParts hkept hparts _).mpr hmem
  obtain ⟨rfl, -⟩ := readValue_eq_ok.mp hvalue
  refine ⟨hmemAll, exists_quotedRuns_of_readValue hvalue (uncut_trimChars ?_)⟩
  -- There is no quotation mark in front of the value, because the name is a token.
  have hname := isKeptName_of_mem_allParameters hmemAll
  have htoken : isToken (String.ofList (Text.trimChars before)) = true :=
    isKeptName_asciiLower.mp hname
  have hbefore : '"' ∉ before := by
    obtain ⟨f, b, hf, hb, htext⟩ := Text.exists_trimChars before
    have hinner := not_mem_of_isToken htoken (d := '"') (by decide)
    rw [String.toList_ofList] at hinner
    rw [htext, List.mem_append, List.mem_append, not_or, not_or]
    exact ⟨⟨Text.not_mem_of_blankOnly hf (by decide), hinner⟩,
      Text.not_mem_of_blankOnly hb (by decide)⟩
  have huncut := uncut_trimChars ((uncut_of_cutSegments hcut).2 segment hsegment)
  rw [(cutAt_eq_some.mp hequals).1, List.append_cons] at huncut
  exact (uncut_of_append (by simpa using hbefore) huncut).2

/-- A value of either kind is closed, is read, and begins and ends with characters that are no
blanks. -/
theorem spec_of_value {value : List Char}
    (h : isToken (String.ofList value) = true ∨ ∃ n, QuotedRuns n value) :
    Closed value ∧ (∀ segment, readValue value segment = .ok (takenValue value)) ∧
      (∃ c, value.head? = some c ∧ Text.isBlank c = false) ∧
      ∃ c, value.getLast? = some c ∧ Text.isBlank c = false := by
  rcases h with htoken | ⟨n, hruns⟩
  · obtain ⟨hne, -⟩ := isToken_spec htoken
    obtain ⟨hfirst, hlast⟩ := ends_of_isToken htoken
    have hclosed := Closed.token htoken
    rw [String.toList_ofList] at hne hfirst hlast hclosed
    exact ⟨hclosed, fun segment => readValue_eq_ok.mpr ⟨rfl, Or.inl htoken⟩,
      ⟨_, List.head?_eq_some_head hne, hfirst _ (List.head?_eq_some_head hne)⟩,
      ⟨_, List.getLast?_eq_some_getLast hne, hlast _ (List.getLast?_eq_some_getLast hne)⟩⟩
  · obtain ⟨inner, rfl, hlast⟩ := hruns.ends
    refine ⟨hruns.closed, fun segment => readValue_eq_ok.mpr ⟨rfl, Or.inr ⟨inner, rfl, hlast⟩⟩,
      ⟨'"', rfl, by decide⟩, '"', ?_, by decide⟩
    rw [List.getLast?_cons, hlast]
    rfl

/-- **Tokens and runs are accepted.** -/
theorem exists_parse_of_value {value : List Char}
    (h : isToken (String.ofList value) = true ∨ ∃ n, QuotedRuns n value) :
    ∃ s m, parse s = .ok m ∧ ("title".toList, value) ∈ writtenParameters s := by
  obtain ⟨hclosed, hread, ⟨first, hfirst, hfirstBlank⟩, last, hlast, hlastBlank⟩ := spec_of_value h
  have hvalue : Text.trimChars value = value :=
    Text.trimChars_of_ends hfirst hlast hfirstBlank hlastBlank
  have htrim : ∀ front : List Char,
      Text.trimChars ('t' :: (front ++ value)) = 't' :: (front ++ value) := by
    intro front
    refine Text.trimChars_of_ends rfl ?_ (by decide) hlastBlank
    rw [List.getLast?_cons, List.getLast?_append, hlast]
    rfl
  have hpiece : Text.trimChars ("title=".toList ++ value) = "title=".toList ++ value := htrim _
  have hequals : cutAt '=' ("title=".toList ++ value) = some ("title".toList, value) :=
    @cutAt_append '=' "title".toList (by decide) value
  have hslash : cutAt '/' "text/plain".toList = some ("text".toList, "plain".toList) := by decide
  let text := "text/plain".toList ++ ';' :: ("title=".toList ++ value)
  have hcut : cutSegments false false text
      = some ("text/plain".toList, ["title=".toList ++ value]) := by
    have hclosedPiece : Closed ("title=".toList ++ value) :=
      (Closed.chars (by decide) (by decide)).append hclosed
    rw [(Closed.chars (by decide) (by decide)).cutSegments_semicolon, hclosedPiece.uncut]
    rfl
  have hkept : ∀ x ∈ [("title", takenValue value)], isKeptName x.1 = true :=
    List.forall_mem_singleton.mpr (show isKeptName "title" = true by decide)
  obtain ⟨r, m, hr, hparts, -⟩ :=
    @exists_ofParts "text" "plain" (by decide) (by decide) _ hkept (List.nodup_singleton _)
  have hsegment : Reading.start.readSegment ("title=".toList ++ value) = .ok r := by
    obtain ⟨next, hput, hnone⟩ := Reading.putAll_cons_eq_ok.mp hr
    cases hnone
    refine readSegment_eq_ok.mpr (Or.inr ⟨"title".toList, value, takenValue value, ?_, ?_, hput⟩)
    · rw [hpiece, hequals]
    · rw [hvalue, hread]
  refine ⟨String.ofList text, m, ?_, ?_⟩
  · refine parse_of_cutSegments (by rwa [String.toList_ofList]) hslash ?_ hparts
    rw [List.foldlM_cons, hsegment]
    rfl
  · have htext : Text.trimChars text = text := htrim "ext/plain;title=".toList
    refine (mem_writtenParameters (by rwa [String.toList_ofList, htext])).mpr
      ⟨_, List.mem_singleton_self _, "title".toList, value, ?_, rfl, hvalue⟩
    rw [hpiece, hequals]

/-- **What stands for a value in a text that is accepted** is a token or made of quoted runs, and
each of these does somewhere. One complete quoted text is the case of a single run; behind the
first, the marks between two runs are taken for what is quoted, and stay in the value. -/
theorem written_value_iff (value : List Char) :
    ((∃ s m name, parse s = .ok m ∧ (name, value) ∈ writtenParameters s) ↔
      isToken (String.ofList value) = true ∨ ∃ n, QuotedRuns n value) ∧
    (∀ n, QuotedRuns n value → (isQuotedText value = true ↔ n = 0)) ∧
    ∀ s m name, parse s = .ok m → (name, value) ∈ writtenParameters s →
      (Text.asciiLower (String.ofList name), takenValue value) ∈ m.allParameters := by
  refine ⟨⟨?_, fun h => ?_⟩, fun n h => h.isQuotedText_iff, fun s m name hparse hx => ?_⟩
  · rintro ⟨s, m, name, hparse, hx⟩
    exact (written_of_parse hparse hx).2
  · obtain ⟨s, m, hparse, hx⟩ := exists_parse_of_value h
    exact ⟨s, m, _, hparse, hx⟩
  · exact (written_of_parse hparse hx).1

/-- A title of two quoted runs is accepted. It is no token, and closes before its end. -/
theorem written_value_two_runs :
    ∃ m, parse "text/plain; title=\"a\"b\"c\"" = .ok m ∧
      ("title", "a\"b\"c") ∈ m.allParameters ∧
      ("title".toList, "\"a\"b\"c\"".toList) ∈ writtenParameters "text/plain; title=\"a\"b\"c\"" ∧
      isToken "\"a\"b\"c\"" = false ∧ isQuotedText "\"a\"b\"c\"".toList = false := by
  have hok : (parse "text/plain; title=\"a\"b\"c\"").isOk = true := by decide +kernel
  obtain ⟨m, hparse⟩ := exists_ok_of_isOk hok
  have hx : ("title".toList, "\"a\"b\"c\"".toList)
      ∈ writtenParameters "text/plain; title=\"a\"b\"c\"" := by decide +kernel
  exact ⟨m, hparse, (written_of_parse hparse hx).1, hx, by decide, by decide⟩

end EventWire.MediaType

import EventWire.Proofs.MediaType.Spelling

/-!
# Media types read back

The text of a media type spells it: parameters in order, small letters, one blank before each
name, and a value between quotation marks only where it is no token (`spells_print`).
So a media type is read back from its text (`parse_print`), and since all spellings are read as
the same, its text is the one that stands for them all.
-/

namespace EventWire.MediaType

/-! ## The text is a spelling -/

theorem quotedAs_escapeValue (cs : List Char) : QuotedAs cs (escapeValue cs) := by
  induction cs with
  | nil => exact .nil
  | cons c rest ih =>
    by_cases h : c = '"' ∨ c = '\\'
    · rw [escapeValue, if_pos (by simpa using h)]
      exact .escaped c ih
    · obtain ⟨hquote, hslash⟩ := not_or.mp h
      rw [escapeValue, if_neg (by simpa using h)]
      exact .plain hquote hslash ih

theorem valueSpelling_valueText (value : String) : ValueSpelling value (valueText value) := by
  unfold valueText
  split
  · next htoken => exact .bare htoken
  · exact .quoted (quotedAs_escapeValue _)

theorem segmentsSpelling_parameterTexts {ps : List (String × String)}
    (hps : ∀ p ∈ ps, isKeptName p.1 = true) :
    SegmentsSpelling ps (ps.flatMap fun p => parameterText p.1 p.2) := by
  induction ps with
  | nil => exact .nil
  | cons p rest ih =>
    obtain ⟨hp, hrest⟩ := List.forall_mem_cons.mp hps
    have hpiece : ParameterSpelling p.1 p.2 (' ' :: p.1.toList ++ '=' :: valueText p.2) := by
      have h := @ParameterSpelling.mk p.1 p.2 p.1 (valueText p.2) [' '] [] [] []
        (isKeptName_iff.mp hp).2 (valueSpelling_valueText p.2) (by decide) rfl rfl rfl
      simpa using h
    rw [List.flatMap_cons]
    exact .parameter hpiece (ih hrest)

theorem base_toList (m : MediaType) :
    m.base.toList = m.primary.text.toList ++ '/' :: m.sub.text.toList := by
  rw [base, String.toList_append, String.toList_append, List.append_assoc]
  rfl

section Print

variable {m : MediaType} {primary sub : String} {ps : List (String × String)}

/-- **The text of a media type is one of its spellings.** -/
theorem spells_print (hprimary : m.primary.text = Text.asciiLower primary)
    (hsub : m.sub.text = Text.asciiLower sub) (hps : m.allParameters.Perm (ps.map smallPair)) :
    Spells primary sub ps m.print := by
  have hsegments := segmentsSpelling_parameterTexts fun _ hp =>
    isKeptName_of_mem_allParameters (m := m) hp
  have htype : Text.sameIgnoringCase m.primary.text primary = true :=
    decide_eq_true (m.primary.small.trans hprimary)
  have hsubtype : Text.sameIgnoringCase m.sub.text sub = true :=
    decide_eq_true (m.sub.small.trans hsub)
  have h := @Spells.mk _ _ _ _ _ _ _ [] [] [] [] htype hsubtype hps hsegments rfl rfl rfl rfl
  rw [print, base_toList]
  simpa using h

theorem map_smallPair_of_isKeptName (h : ∀ p ∈ ps, isKeptName p.1 = true) :
    ps.map smallPair = ps := by
  refine (List.map_congr_left fun p hp => ?_).trans (List.map_id _)
  rw [smallPair, (isKeptName_iff.mp (h p hp)).2]
  rfl

/-- **A media type is read back from its text.** -/
theorem parse_print (m : MediaType) : parse m.print = .ok m := by
  have hkept : m.allParameters.map smallPair = m.allParameters :=
    map_smallPair_of_isKeptName fun _ => isKeptName_of_mem_allParameters
  have hspells : Spells m.primary.text m.sub.text m.allParameters m.print :=
    spells_print m.primary.small.symm m.sub.small.symm (List.Perm.of_eq hkept.symm)
  obtain ⟨n, hn, hprimary, hsub, hmem⟩ := exists_parse_of_spells m.primary.token m.sub.token
    (fun _ hp => (isKeptName_iff.mp (isKeptName_of_mem_allParameters hp)).1)
    (hkept.symm ▸ m.nodup_allParameters) hspells
  have hsame : n = m := eq_of_mem_allParameters (hprimary.trans m.primary.small)
    (hsub.trans m.sub.small) (by rwa [hkept] at hmem)
  rw [hn, hsame]

/-- **Each media type has a text of its own**, and is read back from it. This is so whatever made
it and whatever its values hold: its names are small tokens, and no further parameter is called
as those with a field of their own. Printing what was read settles a text. -/
theorem print_canonical (m : MediaType) :
    (SmallToken m.primary.text ∧ SmallToken m.sub.text ∧ ∀ x ∈ m.parameters.pairs,
      SmallToken x.1 ∧ x.1 ≠ versionName ∧ x.1 ≠ encodingName) ∧
      parse m.print = .ok m ∧ (∀ n : MediaType, m = n ↔ m.print = n.print) ∧
      ∀ s t, (parse s).map print = .ok t → (parse t).map print = .ok t := by
  have hnames : ∀ x ∈ m.parameters.pairs,
      SmallToken x.1 ∧ x.1 ≠ versionName ∧ x.1 ≠ encodingName := by
    intro x hx
    have hfree := Parameters.unreserved_of_mem_pairs hx
    obtain ⟨e, -, rfl⟩ := Parameters.exists_of_mem_pairs hx
    simp only [isReservedName, Bool.or_eq_false_iff, decide_eq_false_iff_not] at hfree
    exact ⟨e.1.smallToken, hfree⟩
  refine ⟨⟨m.primary.smallToken, m.sub.smallToken, hnames⟩, parse_print m, fun n => ?_,
    fun s t h => ?_⟩
  · constructor
    · rintro rfl
      rfl
    · intro htext
      exact Except.ok.inj ((parse_print m).symm.trans (htext ▸ parse_print n))
  · obtain ⟨n, -, rfl⟩ := map_eq_ok.mp h
    rw [parse_print]
    rfl

/-- **However a media type is spelled, it is read as the same.** Parameters called `version` and
`encoding` fill these fields, and all others are its further parameters. What it is read as is
spelled so too. -/
theorem parse_of_spells (hprimary : isToken primary = true) (hsub : isToken sub = true)
    (hps : ∀ p ∈ ps, isToken p.1 = true) (hdistinct : (ps.map fun p => Text.asciiLower p.1).Nodup) :
    ∃ m : MediaType, (∀ s, Spells primary sub ps s → parse s = .ok m) ∧
      Spells primary sub ps m.print ∧
      m.primary.text = Text.asciiLower primary ∧ m.sub.text = Text.asciiLower sub ∧
      (∀ v, m.version = some v ↔ ∃ p ∈ ps, Text.asciiLower p.1 = versionName ∧ p.2 = v) ∧
      (∀ e, m.encoding = some e ↔ ∃ p ∈ ps, Text.asciiLower p.1 = encodingName ∧ p.2 = e) ∧
      ∀ name v, (name, v) ∈ m.parameters.pairs ↔
        (name ≠ versionName ∧ name ≠ encodingName) ∧
          ∃ p ∈ ps, Text.asciiLower p.1 = name ∧ p.2 = v := by
  have hnodup : ((ps.map smallPair).map (·.1)).Nodup := by
    rw [List.map_map]
    exact hdistinct
  have hkept : ∀ x ∈ ps.map smallPair, isKeptName x.1 = true := by
    intro x hx
    obtain ⟨p, hp, rfl⟩ := List.mem_map.mp hx
    exact isKeptName_asciiLower.mpr (hps p hp)
  obtain ⟨m, hmprimary, hmsub, hmem⟩ : ∃ m : MediaType, m.primary.text = Text.asciiLower primary ∧
      m.sub.text = Text.asciiLower sub ∧ ∀ x, x ∈ m.allParameters ↔ x ∈ ps.map smallPair := by
    obtain ⟨r, m, -, -, htype, hsubtype, hmem⟩ := exists_ofParts
      ((trim_of_isToken hprimary).symm ▸ hprimary) ((trim_of_isToken hsub).symm ▸ hsub) hkept hnodup
    rw [trim_of_isToken hprimary] at htype
    rw [trim_of_isToken hsub] at hsubtype
    exact ⟨m, htype, hsubtype, hmem⟩
  have hmemPair : ∀ name v, (name, v) ∈ m.allParameters ↔
      ∃ p ∈ ps, Text.asciiLower p.1 = name ∧ p.2 = v := by
    intro name v
    simp only [hmem, List.mem_map, smallPair, Prod.mk.injEq]
  refine ⟨m, fun s hs => ?_, ?_, hmprimary, hmsub, fun v => ?_, fun e => ?_, fun name v => ?_⟩
  · obtain ⟨n, hn, hnprimary, hnsub, hnmem⟩ := exists_parse_of_spells hprimary hsub hps hnodup hs
    have hsame : n = m := eq_of_mem_allParameters (hnprimary.trans hmprimary.symm)
      (hnsub.trans hmsub.symm) fun x => (hnmem x).trans (hmem x).symm
    rw [hn, hsame]
  · -- Neither side names a parameter twice, so what is in both is the same up to order.
    have hperm : m.allParameters.Perm (ps.map smallPair) :=
      (List.perm_ext_iff_of_nodup m.nodup_allParameters.of_map hnodup.of_map).mpr hmem
    exact spells_print hmprimary hmsub hperm
  · rw [← mem_allParameters_version, hmemPair]
  · rw [← mem_allParameters_encoding, hmemPair]
  · rw [mem_pairs_iff_mem_allParameters, hmemPair]
    simp only [isReservedName, Bool.or_eq_false_iff, decide_eq_false_iff_not]
    exact and_comm

/-- A quoted title with a semicolon in it, an empty value and the version, in another order and
between empty segments. -/
theorem parse_of_spells_title :
    Spells "text" "plain" [("Title", "a;\"b\""), ("version", "1"), ("x", "")]
        " tEXT / pLAIN ;; X=\"\" ; title = \"\\a;\\\"b\\\"\" ;VERSION=1;" ∧
      ∃ m, parse " tEXT / pLAIN ;; X=\"\" ; title = \"\\a;\\\"b\\\"\" ;VERSION=1;" = .ok m ∧
        m.version = some "1" ∧ ("title", "a;\"b\"") ∈ m.parameters.pairs := by
  have hx : ParameterSpelling "x" "" " X=\"\" ".toList :=
    @ParameterSpelling.mk _ "" "X" _ [' '] [] [] [' '] rfl (.quoted QuotedAs.nil) rfl rfl rfl rfl
  have hquoted : QuotedAs "a;\"b\"".toList "\\a;\\\"b\\\"".toList :=
    .escaped _ (.plain (by decide) (by decide) (.escaped _ (.plain (by decide) (by decide)
      (.escaped _ .nil))))
  have htitle : ParameterSpelling "title" "a;\"b\"" " title = \"\\a;\\\"b\\\"\" ".toList :=
    @ParameterSpelling.mk _ _ "title" _ [' '] [' '] [' '] [' '] rfl (.quoted hquoted)
      rfl rfl rfl rfl
  have hversion : ParameterSpelling "version" "1" "VERSION=1".toList :=
    @ParameterSpelling.mk _ _ "VERSION" _ [] [] [] [] rfl (.bare rfl) rfl rfl rfl rfl
  have hend := @SegmentsSpelling.blank _ [] _ rfl .nil
  have hbehind := @SegmentsSpelling.parameter ("version", "1") _ _ _ hversion hend
  have hlater := @SegmentsSpelling.parameter ("title", "a;\"b\"") _ _ _ htitle hbehind
  have hsegments := @SegmentsSpelling.blank _ [] _ rfl
    (@SegmentsSpelling.parameter ("x", "") _ _ _ hx hlater)
  have hspells : Spells "text" "plain" [("Title", "a;\"b\""), ("version", "1"), ("x", "")]
      " tEXT / pLAIN ;; X=\"\" ; title = \"\\a;\\\"b\\\"\" ;VERSION=1;" :=
    @Spells.mk _ _ _ "tEXT" "pLAIN" _ _ [' '] [' '] [' '] [' '] rfl rfl (by decide) hsegments
      rfl rfl rfl rfl
  obtain ⟨m, hparse, -, -, -, hversion, -, hparameters⟩ :=
    @parse_of_spells "text" "plain" [("Title", "a;\"b\""), ("version", "1"), ("x", "")]
      (by decide) (by decide) (by decide) (by decide)
  exact ⟨hspells, m, hparse _ hspells, (hversion "1").mpr (by decide),
    (hparameters _ _).mpr (by decide)⟩

end Print

end EventWire.MediaType

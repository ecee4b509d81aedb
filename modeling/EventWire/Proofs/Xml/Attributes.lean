import EventWire.Proofs.Xml.Lexing
import EventWire.Proofs.Xml.Tree

/-!
# Attributes are read as they are written

Each attribute is written with a blank before it and in quotes, so reading one stops
where the next begins (`readAttribute?_attributeText`). A tag's attributes come back
in order, with their values unescaped, when their names are what a reader takes as
such and differ (`attributesOf_attributes`). Whatever the names are, attributes that are read
to the end of a text are read in front of more as well (`rawAttributes_append`).

Names of attributes are not checked, and a quote in one can hide the end of the tag or
of what follows it. So it is asked for apart that none is left open (`closedQuotes`), which
is so of valid names (`readableAttributes_of_valid`).
-/

namespace EventWire.Xml

/-! ## Names that are read -/

/-- True for what a reader takes as the name of an attribute: it does not begin with a
blank, and goes on to the next blank or `=`. -/
def isReadName : List Char → Bool
  | [] => false
  | first :: more => !Text.isPlainBlank first && more.all inAttributeName

/-- Each attribute has a name that a reader takes as such. -/
def readNames : TagTest := fun _ attributes => attributes.all fun a => isReadName a.1.toList

/-- As they are written, the attributes leave no quote open, and no tag ends among them. -/
def closedQuotes : TagTest := fun _ attributes =>
  cutTag none (attributes.flatMap attributeText ++ ['>'])
    = some (attributes.flatMap attributeText, [])

/-- The attributes are read from a tag as they are. -/
def readableAttributes : TagTest := fun name attributes =>
  readNames name attributes && closedQuotes name attributes

theorem inAttributeName_of_isNameChar {c : Char} (h : isNameChar c = true) :
    inAttributeName c = true := by
  have hne := ne_of_isNameChar (x := '=') (by decide) h
  simp [inAttributeName, hne, not_isPlainBlank_of_isNameChar h]

theorem isReadName_of_isValidName {s : String} (h : isValidName s = true) :
    isReadName s.toList = true := by
  obtain ⟨first, more, hcons, hstart, hchars⟩ := isValidNameChars_cases h
  rw [hcons] at hchars ⊢
  rw [isReadName, not_isPlainBlank_of_isNameChar (isNameChar_of_isNameStart hstart), Bool.not_false,
    Bool.true_and, List.all_eq_true]
  exact fun c hc => inAttributeName_of_isNameChar (hchars c (List.mem_cons_of_mem _ hc))

/-- Valid names are read, and have no quotes in them. -/
theorem readableAttributes_of_valid {name : String} {attributes : List (String × String)}
    (h : validAttributes name attributes = true) : readableAttributes name attributes = true := by
  have hvalid := validAttributes_iff.mp h
  rw [readableAttributes, Bool.and_eq_true, readNames, List.all_eq_true, closedQuotes,
    decide_eq_true_eq]
  exact ⟨fun a ha => isReadName_of_isValidName (hvalid a ha),
    cutTag_enclosed (enclosed_attributes hvalid) []⟩

theorem isReadName_cases {cs : List Char} (h : isReadName cs = true) :
    ∃ first more, cs = first :: more ∧ Text.isPlainBlank first = false ∧
      ∀ c ∈ more, inAttributeName c = true := by
  cases cs with
  | nil => cases h
  | cons first more =>
    rw [isReadName, Bool.and_eq_true, Bool.not_eq_true', List.all_eq_true] at h
    exact ⟨first, more, rfl, h.1, h.2⟩

/-- Readable attributes have names, and the tag goes on behind them. -/
theorem enclosed_of_readable {name : String} {attributes : List (String × String)}
    (h : readableAttributes name attributes = true) :
    (∀ a ∈ attributes, isReadName a.1.toList = true) ∧
      Enclosed (attributes.flatMap attributeText) := by
  rw [readableAttributes, Bool.and_eq_true, readNames, List.all_eq_true, closedQuotes,
    decide_eq_true_eq] at h
  exact ⟨h.1, enclosed_of_cutTag h.2⟩

/-! ## Reading -/

theorem quotedValue?_quoted {value : List Char} (h : '"' ∉ value) (rest : List Char) :
    quotedValue? ('"' :: (value ++ '"' :: rest)) = some (value, rest) := by
  have hvalue : ∀ c ∈ value, decide (c ≠ '"') = true := fun c hc =>
    decide_eq_true fun e => h (e ▸ hc)
  rw [quotedValue?, if_pos (by decide), List.dropWhile_append_of_pos hvalue,
    List.takeWhile_append_of_pos hvalue, List.takeWhile_cons, List.dropWhile_cons]
  simp

/-- A name goes on to the next `=`, and the value stands behind it. -/
theorem readAttribute?_quoted {first : Char} {more cs value after : List Char}
    (hname : ∀ c ∈ more, inAttributeName c = true)
    (hvalue : quotedValue? ('"' :: cs) = some (value, after)) :
    readAttribute? first (more ++ '=' :: '"' :: cs) = some ((first :: more, value), after) := by
  rw [readAttribute?, List.takeWhile_append_of_pos hname, List.dropWhile_append_of_pos hname,
    List.takeWhile_cons, if_neg (by decide), List.append_nil, List.dropWhile_cons,
    if_neg (by decide)]
  show (quotedValue? ('"' :: cs)).map _ = _
  rw [hvalue]
  rfl

/-- One attribute is read, and what follows its quote is left. -/
theorem readAttribute?_attributeText {first : Char} {more : List Char} {value : List Char}
    (hname : ∀ c ∈ more, inAttributeName c = true) (rest : List Char) :
    readAttribute? first (more ++ '=' :: '"' :: (escape value ++ '"' :: rest))
      = some ((first :: more, escape value), rest) := by
  have hquote : '"' ∉ escape value := not_mem_escape (Or.inr (Or.inr (Or.inl rfl))) value
  exact readAttribute?_quoted hname (quotedValue?_quoted hquote rest)

/-! ## Rounds -/

theorem length_dropWhile_le (p : Char → Bool) (cs : List Char) :
    (cs.dropWhile p).length ≤ cs.length :=
  (List.dropWhile_suffix p).length_le

theorem length_quotedValue? {cs value after : List Char}
    (h : quotedValue? cs = some (value, after)) : after.length ≤ cs.length := by
  unfold quotedValue? at h
  split at h
  · next q rest =>
    split at h
    · split at h
      · cases h
      · next c left hleft =>
        cases h
        have hle := length_dropWhile_le (fun c => decide (c ≠ q)) rest
        rw [hleft, List.length_cons] at hle
        rw [List.length_cons]
        omega
    · cases h
  · cases h

theorem length_readAttribute? {first : Char} {rest after : List Char}
    {item : List Char × List Char} (h : readAttribute? first rest = some (item, after)) :
    after.length ≤ rest.length := by
  unfold readAttribute? at h
  dsimp only at h
  split at h
  · next left hleft =>
    obtain ⟨⟨value, after'⟩, hvalue, heq⟩ := Option.map_eq_some_iff.mp h
    cases heq
    have hname := length_dropWhile_le inAttributeName rest
    have hblanks := length_dropWhile_le Text.isPlainBlank
      (rest.dropWhile inAttributeName)
    have hmore := length_dropWhile_le Text.isPlainBlank left
    have hquoted := length_quotedValue? hvalue
    rw [hleft, List.length_cons] at hblanks
    dsimp only
    omega
  · cases h

/-- More rounds than there are characters change nothing. -/
theorem rawAttributesWithin_eq (fuel : Nat) : ∀ {cs : List Char}, cs.length ≤ fuel →
    rawAttributesWithin fuel cs = rawAttributes cs := by
  induction fuel using Nat.strongRecOn with
  | ind fuel ih =>
    intro cs h
    have hdrop := length_dropWhile_le Text.isPlainBlank cs
    cases cs with
    | nil => cases fuel <;> rfl
    | cons c more =>
      obtain ⟨fuel, rfl⟩ := Nat.exists_eq_add_one.mpr (Nat.lt_of_lt_of_le (Nat.succ_pos _) h)
      rw [rawAttributes, List.length_cons, rawAttributesWithin, rawAttributesWithin]
      split
      · rfl
      · next first rest hcs =>
        split
        · rfl
        · next item after hread =>
          have hafter := length_readAttribute? hread
          rw [hcs, List.length_cons, List.length_cons] at hdrop
          rw [List.length_cons] at h
          rw [ih fuel (by omega) (by omega), ih more.length (by omega) (by omega)]

section Equations

variable {cs : List Char}

theorem rawAttributes_of_blank (h : cs.dropWhile Text.isPlainBlank = []) :
    rawAttributes cs = { items := [], broken := false } := by
  rw [← rawAttributesWithin_eq (cs.length + 1) (Nat.le_succ _), rawAttributesWithin, h]

theorem rawAttributes_of_none {first : Char} {rest : List Char}
    (h : cs.dropWhile Text.isPlainBlank = first :: rest)
    (hread : readAttribute? first rest = none) :
    rawAttributes cs = { items := [], broken := true } := by
  rw [← rawAttributesWithin_eq (cs.length + 1) (Nat.le_succ _), rawAttributesWithin, h]
  dsimp only
  rw [hread]

theorem rawAttributes_of_some {first : Char} {rest after : List Char}
    {item : List Char × List Char} (h : cs.dropWhile Text.isPlainBlank = first :: rest)
    (hread : readAttribute? first rest = some (item, after)) :
    rawAttributes cs
      = { rawAttributes after with items := item :: (rawAttributes after).items } := by
  have hdrop := length_dropWhile_le Text.isPlainBlank cs
  have hafter := length_readAttribute? hread
  rw [h, List.length_cons] at hdrop
  rw [← rawAttributesWithin_eq (cs.length + 1) (Nat.le_succ _), rawAttributesWithin, h]
  dsimp only
  rw [hread]
  dsimp only
  rw [rawAttributesWithin_eq cs.length (by omega)]

/-- Only from where nothing is missing and nothing is left is there nothing to read. -/
theorem blank_of_rawAttributes (h : rawAttributes cs = { items := [], broken := false }) :
    cs.dropWhile Text.isPlainBlank = [] := by
  cases hcs : cs.dropWhile Text.isPlainBlank with
  | nil => rfl
  | cons first rest =>
    cases hread : readAttribute? first rest with
    | none =>
      rw [rawAttributes_of_none hcs hread] at h
      cases h
    | some p =>
      obtain ⟨item, after⟩ := p
      rw [rawAttributes_of_some hcs hread] at h
      cases h

end Equations

/-! ## What follows -/

theorem takeWhile_append_of_dropWhile {p : Char → Bool} {cs : List Char}
    (h : cs.dropWhile p ≠ []) (back : List Char) :
    (cs ++ back).takeWhile p = cs.takeWhile p ∧
      (cs ++ back).dropWhile p = cs.dropWhile p ++ back := by
  have hne : ¬(cs.dropWhile p).isEmpty = true := fun e => h (List.isEmpty_iff.mp e)
  have hlength : (cs.takeWhile p).length ≠ cs.length := by
    intro e
    have hsum := congrArg List.length (List.takeWhile_append_dropWhile (p := p) (l := cs))
    rw [List.length_append, e] at hsum
    exact h (List.length_eq_zero_iff.mp (by omega))
  rw [List.takeWhile_append, List.dropWhile_append, if_neg hlength, if_neg hne]
  exact ⟨rfl, rfl⟩

theorem quotedValue?_append {cs value after : List Char}
    (h : quotedValue? cs = some (value, after)) (back : List Char) :
    quotedValue? (cs ++ back) = some (value, after ++ back) := by
  unfold quotedValue? at h
  split at h
  · next q rest =>
    split at h
    · next hq =>
      split at h
      · cases h
      · next c left hleft =>
        cases h
        have hne : (rest.dropWhile fun c => decide (c ≠ q)) ≠ [] := by
          rw [hleft]
          exact List.cons_ne_nil _ _
        obtain ⟨htake, hdrop⟩ := takeWhile_append_of_dropWhile hne back
        rw [List.cons_append, quotedValue?, if_pos hq, hdrop, hleft, htake]
        rfl
    · cases h
  · cases h

/-- An attribute that is read to its end is the same whatever follows it. -/
theorem readAttribute?_append {first : Char} {rest after : List Char}
    {item : List Char × List Char} (h : readAttribute? first rest = some (item, after))
    (back : List Char) : readAttribute? first (rest ++ back) = some (item, after ++ back) := by
  unfold readAttribute? at h
  dsimp only at h
  split at h
  · next left hleft =>
    obtain ⟨⟨value, after'⟩, hvalue, heq⟩ := Option.map_eq_some_iff.mp h
    cases heq
    have hname : rest.dropWhile inAttributeName ≠ [] := by
      intro e
      rw [e] at hleft
      cases hleft
    have hblanks : (rest.dropWhile inAttributeName).dropWhile Text.isPlainBlank ≠ [] := by
      rw [hleft]
      exact List.cons_ne_nil _ _
    have hmore : left.dropWhile Text.isPlainBlank ≠ [] := by
      intro e
      rw [e] at hvalue
      cases hvalue
    unfold readAttribute?
    dsimp only
    rw [(takeWhile_append_of_dropWhile hname back).1, (takeWhile_append_of_dropWhile hname back).2,
      (takeWhile_append_of_dropWhile hblanks back).2, hleft]
    show (quotedValue? ((left ++ back).dropWhile Text.isPlainBlank)).map _ = _
    rw [(takeWhile_append_of_dropWhile hmore back).2, quotedValue?_append hvalue back]
    rfl
  · cases h

/-- **Attributes that are read to the end are the same whatever follows**, and what follows
is read as if nothing stood before it. -/
theorem rawAttributes_append {front : List Char} (h : (rawAttributes front).broken = false)
    (back : List Char) : rawAttributes (front ++ back)
      = { items := (rawAttributes front).items ++ (rawAttributes back).items
          broken := (rawAttributes back).broken } := by
  cases hfront : front.dropWhile Text.isPlainBlank with
  | nil =>
    have hdrop : (front ++ back).dropWhile Text.isPlainBlank
        = back.dropWhile Text.isPlainBlank := by
      rw [List.dropWhile_append, hfront, if_pos List.isEmpty_nil]
    have hsame : rawAttributes (front ++ back) = rawAttributes back := by
      cases hback : back.dropWhile Text.isPlainBlank with
      | nil => rw [rawAttributes_of_blank (hdrop.trans hback), rawAttributes_of_blank hback]
      | cons first rest =>
        cases hread : readAttribute? first rest with
        | none =>
          rw [rawAttributes_of_none (hdrop.trans hback) hread, rawAttributes_of_none hback hread]
        | some p =>
          obtain ⟨item, after⟩ := p
          rw [rawAttributes_of_some (hdrop.trans hback) hread, rawAttributes_of_some hback hread]
    rw [hsame, rawAttributes_of_blank hfront]
    rfl
  | cons first rest =>
    cases hread : readAttribute? first rest with
    | none =>
      rw [rawAttributes_of_none hfront hread] at h
      cases h
    | some p =>
      obtain ⟨item, after⟩ := p
      have hshort : after.length < front.length := by
        have hlength := length_dropWhile_le Text.isPlainBlank front
        have hafter := length_readAttribute? hread
        rw [hfront, List.length_cons] at hlength
        omega
      have hne : front.dropWhile Text.isPlainBlank ≠ [] := by
        rw [hfront]
        exact List.cons_ne_nil _ _
      have hdrop : (front ++ back).dropWhile Text.isPlainBlank = first :: (rest ++ back) := by
        rw [(takeWhile_append_of_dropWhile hne back).2, hfront, List.cons_append]
      rw [rawAttributes_of_some hfront hread] at h ⊢
      rw [rawAttributes_of_some hdrop (readAttribute?_append hread back),
        rawAttributes_append h back, List.cons_append]
termination_by front.length

/-! ## Written attributes -/

/-- The attributes as they are written: values with escapes. -/
def rawItems (attributes : List (String × String)) : List (List Char × List Char) :=
  attributes.map fun a => (a.1.toList, escape a.2.toList)

theorem rawAttributes_attributeText {a : String × String} (h : isReadName a.1.toList = true) :
    rawAttributes (attributeText a)
      = { items := [(a.1.toList, escape a.2.toList)], broken := false } := by
  obtain ⟨first, more, hcons, hfirst, hmore⟩ := isReadName_cases h
  -- The blank goes, and the name begins.
  have htext : (attributeText a).dropWhile Text.isPlainBlank
      = first :: (more ++ '=' :: '"' :: (escape a.2.toList ++ '"' :: [])) := by
    have hblank : Text.isPlainBlank ' ' = true := by decide
    simp [attributeText, hcons, hfirst, hblank]
  rw [rawAttributes_of_some htext (readAttribute?_attributeText hmore []), hcons]
  rfl

theorem rawAttributes_attributes {attributes : List (String × String)}
    (h : ∀ a ∈ attributes, isReadName a.1.toList = true) :
    rawAttributes (attributes.flatMap attributeText)
      = { items := rawItems attributes, broken := false } := by
  induction attributes with
  | nil => rfl
  | cons a later ih =>
    obtain ⟨ha, hlater⟩ := List.forall_mem_cons.mp h
    have hfirst := rawAttributes_attributeText ha
    rw [List.flatMap_cons, rawAttributes_append (by rw [hfirst]), hfirst, ih hlater]
    rfl

/-- Values are unescaped one after the other, as long as no name comes again. -/
theorem readAttributes_rawItems {attributes : List (String × String)} :
    ∀ {before : List (String × String)}, ((before ++ attributes).map (·.1)).Nodup →
      Builder.readAttributes false before (rawItems attributes) = .ok (before ++ attributes) := by
  induction attributes with
  | nil => intro before _; rw [List.append_nil]; rfl
  | cons a later ih =>
    intro before hnodup
    -- The names before are those that a reader compares with.
    have hnew : (before.any fun b => decide (b.1 = String.ofList a.1.toList)) = false := by
      rw [List.any_eq_false]
      intro b hb
      rw [String.ofList_toList, decide_eq_true_eq]
      intro e
      rw [List.map_append, List.nodup_append] at hnodup
      exact hnodup.2.2 _ (List.mem_map_of_mem hb) _ (List.mem_map_of_mem (List.mem_cons_self ..)) e
    have hnodup' : ((before ++ [a] ++ later).map (·.1)).Nodup := by
      rw [List.append_assoc]
      exact hnodup
    have hlater := ih hnodup'
    rw [rawItems, List.map_cons, Builder.readAttributes, hnew, if_neg (by decide),
      unescape?_escape]
    dsimp only
    rw [String.ofList_toList, String.ofList_toList]
    rw [List.append_assoc] at hlater
    exact hlater

/-- **Attributes are read as they were written.** -/
theorem attributesOf_attributes {attributes : List (String × String)}
    (h : ∀ a ∈ attributes, isReadName a.1.toList = true) (hnodup : (attributes.map (·.1)).Nodup) :
    Builder.attributesOf (attributes.flatMap attributeText) = .ok attributes := by
  unfold Builder.attributesOf
  rw [rawAttributes_attributes h]
  exact @readAttributes_rawItems attributes [] hnodup

end EventWire.Xml

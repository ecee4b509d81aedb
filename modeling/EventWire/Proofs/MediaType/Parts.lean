import EventWire.MediaType.Parser
import EventWire.MediaType.Printer
import EventWire.Proofs.Except
import EventWire.Proofs.MediaType.Token
import Mathlib.Data.List.Sort

/-!
# Parameters by name and value

Parameters are collected while a text is read, and version and encoding are told from the
others. In a media type they stand in three places again. What they are is told by pairs of
a name and a value (`Reading.pairs`, `Parameters.pairs`, `allParameters`): each step adds
the pair it is given and changes no other. No step fails when names are tokens and no name
comes twice, so parameters that differ in their order alone make one media type
(`exists_ofParts`, `eq_of_mem_allParameters`).
-/

namespace EventWire

theorem Token.ext_text {a b : Token} (h : a.text = b.text) : a = b := by
  cases a
  cases b
  simp_all

namespace Parameters

/-- The parameters by name and value. -/
def pairs (p : Parameters) : List (String × String) :=
  p.entries.map fun e => (e.1.text, e.2)

variable {p q : Parameters}

theorem mem_pairs {e : Token × String} : (e.1.text, e.2) ∈ p.pairs ↔ e ∈ p.entries := by
  constructor
  · intro h
    obtain ⟨e', he', heq⟩ := List.mem_map.mp h
    obtain ⟨htext, hvalue⟩ := Prod.mk.inj heq
    have hsame : e' = e := Prod.ext (Token.ext_text htext) hvalue
    exact hsame ▸ he'
  · exact fun h => List.mem_map.mpr ⟨e, h, rfl⟩

theorem exists_of_mem_pairs {x : String × String} (h : x ∈ p.pairs) :
    ∃ e ∈ p.entries, (e.1.text, e.2) = x :=
  List.mem_map.mp h

theorem unreserved_of_mem_pairs {x : String × String} (h : x ∈ p.pairs) :
    isReservedName x.1 = false := by
  obtain ⟨e, he, rfl⟩ := exists_of_mem_pairs h
  exact p.unreserved e he

/-- The order of the names leaves one list of entries for what is in it. -/
theorem eq_of_mem_pairs (h : ∀ x, x ∈ p.pairs ↔ x ∈ q.pairs) : p = q := by
  let below (a b : Token × String) : Prop := a.1.text < b.1.text
  have hasymm : Std.Antisymm below :=
    ⟨fun a b hab hba => absurd (String.lt_trans hab hba) (String.lt_irrefl _)⟩
  have hirrefl : Std.Irrefl below := ⟨fun a => String.lt_irrefl _⟩
  have hentries : p.entries = q.entries :=
    List.Pairwise.eq_of_mem_iff (r := below) p.sorted q.sorted fun e => by
      rw [← mem_pairs, ← mem_pairs, h]
  cases p
  cases q
  simp_all

theorem nodup_names (p : Parameters) : (p.pairs.map (·.1)).Nodup := by
  have hne : ∀ {a b : Token × String}, a.1.text < b.1.text → a.1.text ≠ b.1.text := by
    intro a b hab he
    exact String.lt_irrefl _ (he ▸ hab)
  rw [pairs, List.map_map]
  exact List.pairwise_map.mpr (p.sorted.imp hne)

theorem pairs_empty : empty.pairs = [] := rfl

section Add

variable {k : Token} {v : String} {free : isReservedName k.text = false}

theorem mem_pairs_add? (h : p.add? k v free = some q) (x : String × String) :
    x ∈ q.pairs ↔ x ∈ p.pairs ∨ x = (k.text, v) := by
  unfold add? at h
  split at h
  · cases h
    simp only [pairs, List.mem_map, mem_insertEntry]
    constructor
    · rintro ⟨e, rfl | he, rfl⟩
      · exact Or.inr rfl
      · exact Or.inl ⟨e, he, rfl⟩
    · rintro (⟨e, he, rfl⟩ | rfl)
      · exact ⟨e, Or.inr he, rfl⟩
      · exact ⟨(k, v), Or.inl rfl, rfl⟩
  · cases h

theorem exists_add? (h : k.text ∉ p.pairs.map (·.1)) : ∃ q, p.add? k v free = some q := by
  have fresh : ∀ e ∈ p.entries, e.1.text ≠ k.text := by
    intro e he hsame
    exact h (List.mem_map.mpr ⟨_, mem_pairs.mpr he, hsame⟩)
  unfold add?
  rw [dif_pos fresh]
  exact ⟨_, rfl⟩

end Add

end Parameters

namespace MediaType

/-! ## Adding parameters -/

/-- A parameter under its name as it is kept. -/
def keptPair (x : String × String) : String × String :=
  (Text.asciiLower (Text.trim x.1), x.2)

/-- True for small tokens, the names that are kept as they are. -/
def isKeptName (name : String) : Bool :=
  isToken name && decide (Text.asciiLower name = name)

theorem isKeptName_iff {name : String} :
    isKeptName name = true ↔ isToken name = true ∧ Text.asciiLower name = name := by
  rw [isKeptName, Bool.and_eq_true, decide_eq_true_eq]

theorem isKeptName_asciiLower {name : String} :
    isKeptName (Text.asciiLower name) = true ↔ isToken name = true := by
  rw [isKeptName_iff, isToken_asciiLower, Text.asciiLower_asciiLower]
  exact and_iff_left rfl

theorem Token.isKeptName (t : Token) : isKeptName t.text = true :=
  isKeptName_iff.mpr ⟨t.token, t.small⟩

theorem keptPair_of_isKeptName {x : String × String} (h : isKeptName x.1 = true) :
    keptPair x = x := by
  obtain ⟨htoken, hsmall⟩ := isKeptName_iff.mp h
  rw [keptPair, trim_of_isToken htoken, hsmall]

theorem readToken_of_isKeptName {part : MediaTypePart} {name : String} {t : Token}
    (h : isKeptName name = true) : readToken part name = .ok t ↔ t.text = name := by
  obtain ⟨htoken, hsmall⟩ := isKeptName_iff.mp h
  rw [readToken_eq_ok, trim_of_isToken htoken, hsmall, and_iff_right htoken]

theorem exists_token {name : String} (h : isKeptName name = true) : ∃ t : Token, t.text = name :=
  ⟨⟨name, (isKeptName_iff.mp h).1, (isKeptName_iff.mp h).2⟩, rfl⟩

section AddParameters

variable {ps : List (String × String)}

/-- One parameter is added, and then the others. -/
theorem addParameters_cons_eq_ok {x : String × String} {p q : Parameters} :
    addParameters p (x :: ps) = .ok q ↔
      ∃ key p', ∃ free : isReservedName key.text = false,
        readToken .parameterName x.1 = .ok key ∧ p.add? key x.2 free = some p' ∧
          addParameters p' ps = .ok q := by
  obtain ⟨name, value⟩ := x
  rw [addParameters, bind_eq_ok]
  constructor
  · rintro ⟨key, hkey, h⟩
    split at h
    · next free =>
      split at h
      · next p' hadd => exact ⟨key, p', free, hkey, hadd, h⟩
      · cases h
    · cases h
  · rintro ⟨key, p', free, hkey, hadd, h⟩
    refine ⟨key, hkey, ?_⟩
    rw [dif_pos free, hadd]
    exact h

/-- **Adding parameters adds them and nothing else**, and each name was a token. -/
theorem mem_pairs_addParameters : ∀ {p q : Parameters}, addParameters p ps = .ok q →
    (∀ x ∈ ps, isToken (Text.trim x.1) = true) ∧
      ∀ y, y ∈ q.pairs ↔ y ∈ p.pairs ∨ y ∈ ps.map keptPair := by
  induction ps with
  | nil =>
    intro p q h
    rw [addParameters] at h
    cases h
    simp
  | cons x rest ih =>
    intro p q h
    obtain ⟨key, p', free, hkey, hadd, hrest⟩ := addParameters_cons_eq_ok.mp h
    obtain ⟨htokens, hmem⟩ := ih hrest
    obtain ⟨htoken, htext⟩ := readToken_eq_ok.mp hkey
    refine ⟨List.forall_mem_cons.mpr ⟨htoken, htokens⟩, fun y => ?_⟩
    have hkept : (key.text, x.2) = keptPair x := by rw [keptPair, htext]
    rw [hmem, Parameters.mem_pairs_add? hadd, hkept, List.map_cons, List.mem_cons, or_assoc]

/-- What is new before one parameter is added and is not called as that is new behind it. -/
theorem new_of_added {before behind : List (String × String)} {x : String × String}
    (hadded : ∀ y, y ∈ behind ↔ y ∈ before ∨ y = x) (hother : x.1 ∉ ps.map (·.1))
    (hnew : ∀ y ∈ ps, y.1 ∉ before.map (·.1)) : ∀ y ∈ ps, y.1 ∉ behind.map (·.1) := by
  intro y hy hmem
  obtain ⟨z, hz, hsame⟩ := List.mem_map.mp hmem
  rcases (hadded z).mp hz with hz | rfl
  · exact hnew y hy (List.mem_map.mpr ⟨z, hz, hsame⟩)
  · exact hother (List.mem_map.mpr ⟨y, hy, hsame.symm⟩)

/-- **Parameters are added when their names are tokens, free and new.** -/
theorem exists_addParameters (hkept : ∀ x ∈ ps, isKeptName x.1 = true)
    (hfree : ∀ x ∈ ps, isReservedName x.1 = false) (hnodup : (ps.map (·.1)).Nodup) :
    ∀ {p : Parameters}, (∀ x ∈ ps, x.1 ∉ p.pairs.map (·.1)) →
      ∃ q, addParameters p ps = .ok q := by
  induction ps with
  | nil => exact fun _ => ⟨_, rfl⟩
  | cons x rest ih =>
    intro p hnew
    obtain ⟨name, value⟩ := x
    obtain ⟨hname, hkept'⟩ := List.forall_mem_cons.mp hkept
    obtain ⟨hnameFree, hfree'⟩ := List.forall_mem_cons.mp hfree
    obtain ⟨hnameNew, hnew'⟩ := List.forall_mem_cons.mp hnew
    obtain ⟨hother, hnodup'⟩ := List.nodup_cons.mp hnodup
    obtain ⟨key, rfl⟩ := exists_token hname
    obtain ⟨p', hadd⟩ : ∃ p', p.add? key value hnameFree = some p' :=
      Parameters.exists_add? hnameNew
    obtain ⟨q, hq⟩ :=
      ih hkept' hfree' hnodup' (new_of_added (Parameters.mem_pairs_add? hadd) hother hnew')
    exact ⟨q, addParameters_cons_eq_ok.mpr
      ⟨key, p', hnameFree, (readToken_of_isKeptName hname).mpr rfl, hadd, hq⟩⟩

end AddParameters

/-- **A media type is made from its parts** exactly if type and subtype are tokens and the
parameters can be added. -/
theorem ofParts_eq_ok {primary sub : String} {version encoding : Option String}
    {parameters : List (String × String)} {m : MediaType} :
    ofParts primary sub version encoding parameters = .ok m ↔
      readToken .type primary = .ok m.primary ∧ readToken .subtype sub = .ok m.sub ∧
        m.version = version ∧ m.encoding = encoding ∧
        addParameters .empty parameters = .ok m.parameters := by
  rw [ofParts, bind_eq_ok]
  constructor
  · rintro ⟨p, hp, h⟩
    obtain ⟨s, hs, h⟩ := bind_eq_ok.mp h
    obtain ⟨ps, hps, h⟩ := bind_eq_ok.mp h
    cases h
    exact ⟨hp, hs, rfl, rfl, hps⟩
  · rintro ⟨hp, hs, rfl, rfl, hps⟩
    refine ⟨_, hp, ?_⟩
    rw [hs, ok_bind, hps, ok_bind]
    rfl

/-! ## Parameters of a media type -/

theorem isReservedName_versionName : isReservedName versionName = true := by decide

theorem isReservedName_encodingName : isReservedName encodingName = true := by decide

section AllParameters

variable {m n : MediaType}

theorem mem_allParameters {x : String × String} : x ∈ m.allParameters ↔
    (∃ v, m.version = some v ∧ (versionName, v) = x) ∨
      (∃ e, m.encoding = some e ∧ (encodingName, e) = x) ∨ x ∈ m.parameters.pairs := by
  rw [allParameters, List.mem_append, List.mem_append, or_assoc]
  simp only [List.mem_map, Option.mem_toList, Parameters.pairs]

theorem mem_allParameters_version {v : String} :
    (versionName, v) ∈ m.allParameters ↔ m.version = some v := by
  rw [mem_allParameters]
  constructor
  · rintro (⟨v', hv', heq⟩ | ⟨e, -, heq⟩ | hmem)
    · rw [hv', (Prod.mk.inj heq).2]
    · exact absurd (Prod.mk.inj heq).1 (by decide)
    · have hfree := Parameters.unreserved_of_mem_pairs hmem
      rw [isReservedName_versionName] at hfree
      cases hfree
  · exact fun h => Or.inl ⟨v, h, rfl⟩

theorem mem_allParameters_encoding {e : String} :
    (encodingName, e) ∈ m.allParameters ↔ m.encoding = some e := by
  rw [mem_allParameters]
  constructor
  · rintro (⟨v, -, heq⟩ | ⟨e', he', heq⟩ | hmem)
    · exact absurd (Prod.mk.inj heq).1 (by decide)
    · rw [he', (Prod.mk.inj heq).2]
    · have hfree := Parameters.unreserved_of_mem_pairs hmem
      rw [isReservedName_encodingName] at hfree
      cases hfree
  · exact fun h => Or.inr (Or.inl ⟨e, h, rfl⟩)

theorem mem_pairs_iff_mem_allParameters {x : String × String} :
    x ∈ m.parameters.pairs ↔ x ∈ m.allParameters ∧ isReservedName x.1 = false := by
  rw [mem_allParameters]
  constructor
  · exact fun h => ⟨Or.inr (Or.inr h), Parameters.unreserved_of_mem_pairs h⟩
  · rintro ⟨⟨v, -, rfl⟩ | ⟨e, -, rfl⟩ | hmem, hfree⟩
    · rw [isReservedName_versionName] at hfree
      cases hfree
    · rw [isReservedName_encodingName] at hfree
      cases hfree
    · exact hmem

/-- **A media type is its base and its parameters**, in whatever order they are told. -/
theorem eq_of_mem_allParameters (hprimary : m.primary.text = n.primary.text)
    (hsub : m.sub.text = n.sub.text) (h : ∀ x, x ∈ m.allParameters ↔ x ∈ n.allParameters) :
    m = n := by
  have hversion : m.version = n.version := Option.ext fun v => by
    rw [← mem_allParameters_version, ← mem_allParameters_version, h]
  have hencoding : m.encoding = n.encoding := Option.ext fun e => by
    rw [← mem_allParameters_encoding, ← mem_allParameters_encoding, h]
  have hparameters : m.parameters = n.parameters := Parameters.eq_of_mem_pairs fun x => by
    rw [mem_pairs_iff_mem_allParameters, mem_pairs_iff_mem_allParameters, h]
  have hprimary : m.primary = n.primary := Token.ext_text hprimary
  have hsub : m.sub = n.sub := Token.ext_text hsub
  cases m
  cases n
  simp_all

theorem isKeptName_of_mem_allParameters {x : String × String} (h : x ∈ m.allParameters) :
    isKeptName x.1 = true := by
  rcases mem_allParameters.mp h with ⟨v, -, rfl⟩ | ⟨e, -, rfl⟩ | hmem
  · exact show isKeptName versionName = true by decide +kernel
  · exact show isKeptName encodingName = true by decide +kernel
  · obtain ⟨e, -, rfl⟩ := Parameters.exists_of_mem_pairs hmem
    exact Token.isKeptName e.1

/-- No name stands for two parameters. -/
theorem nodup_allParameters (m : MediaType) : (m.allParameters.map (·.1)).Nodup := by
  have hfree : ∀ name, isReservedName name = true → name ∉ m.parameters.pairs.map (·.1) := by
    intro name hreserved hmem
    obtain ⟨x, hx, rfl⟩ := List.mem_map.mp hmem
    rw [Parameters.unreserved_of_mem_pairs hx] at hreserved
    cases hreserved
  have hversion := hfree _ isReservedName_versionName
  have hencoding := hfree _ isReservedName_encodingName
  have hnodup := m.parameters.nodup_names
  have hne : versionName ≠ encodingName := by decide
  have hnames : m.allParameters.map (·.1) = m.version.toList.map (fun _ => versionName) ++
      m.encoding.toList.map (fun _ => encodingName) ++ m.parameters.pairs.map (·.1) := by
    simp [allParameters, Parameters.pairs, Function.comp_def]
  rw [hnames]
  cases m.version with
  | none =>
    cases m.encoding with
    | none => exact hnodup
    | some e => exact List.nodup_cons.mpr ⟨hencoding, hnodup⟩
  | some v =>
    cases m.encoding with
    | none => exact List.nodup_cons.mpr ⟨hversion, hnodup⟩
    | some e =>
      refine List.nodup_cons.mpr ⟨fun hmem => ?_, List.nodup_cons.mpr ⟨hencoding, hnodup⟩⟩
      rcases List.mem_cons.mp hmem with hsame | hmem
      · exact hne hsame
      · exact hversion hmem

end AllParameters

/-! ## Parameters while a text is read -/

namespace Reading

/-- Nothing read yet. -/
def start : Reading :=
  { version := none, encoding := none, others := [] }

/-- The parameters read so far, by name and value. -/
def pairs (r : Reading) : List (String × String) :=
  r.version.toList.map (versionName, ·) ++ r.encoding.toList.map (encodingName, ·) ++ r.others

variable {r r' : Reading} {name value : String} {ps : List (String × String)}

theorem pairs_start : start.pairs = [] := rfl

theorem mem_pairs {x : String × String} : x ∈ r.pairs ↔
    (∃ v, r.version = some v ∧ (versionName, v) = x) ∨
      (∃ e, r.encoding = some e ∧ (encodingName, e) = x) ∨ x ∈ r.others := by
  rw [pairs, List.mem_append, List.mem_append, or_assoc]
  simp only [List.mem_map, Option.mem_toList]

/-- Putting a parameter adds it, and only a name without a field of its own goes to the
others. -/
theorem put_spec (h : r.put name value = .ok r') :
    (∀ x, x ∈ r'.pairs ↔ x ∈ r.pairs ∨ x = (name, value)) ∧
      r'.others = r.others ++ [(name, value)].filter fun x => !isReservedName x.1 := by
  rw [put] at h
  split at h
  · next hname =>
    split at h
    · cases h
    · next hnone =>
      cases h
      have hversion : r.version = none := by simpa using hnone
      subst hname
      rw [List.filter_cons_of_neg (by simp [isReservedName_versionName])]
      refine ⟨fun x => ?_, (List.append_nil _).symm⟩
      simp only [mem_pairs, hversion]
      grind
  · split at h
    · next hname =>
      split at h
      · cases h
      · next hnone =>
        cases h
        have hencoding : r.encoding = none := by simpa using hnone
        subst hname
        rw [List.filter_cons_of_neg (by simp [isReservedName_encodingName])]
        refine ⟨fun x => ?_, (List.append_nil _).symm⟩
        simp only [mem_pairs, hencoding]
        grind
    · next hversion hencoding =>
      cases h
      have hfree : isReservedName name = false := by simp [isReservedName, hversion, hencoding]
      rw [List.filter_cons_of_pos (by simp [hfree])]
      refine ⟨fun x => ?_, rfl⟩
      simp only [mem_pairs, List.mem_append, List.mem_singleton]
      grind

/-- A parameter of a new name is put. -/
theorem exists_put (h : name ∉ r.pairs.map (·.1)) : ∃ r', r.put name value = .ok r' := by
  have hnew : ∀ {v : String}, (name, v) ∉ r.pairs := fun hmem =>
    h (List.mem_map.mpr ⟨_, hmem, rfl⟩)
  rw [put]
  split
  · next hname =>
    cases hversion : r.version with
    | none => exact ⟨_, rfl⟩
    | some v => exact absurd (mem_pairs.mpr (Or.inl ⟨v, hversion, by rw [hname]⟩)) hnew
  · split
    · next hname =>
      cases hencoding : r.encoding with
      | none => exact ⟨_, rfl⟩
      | some e => exact absurd (mem_pairs.mpr (Or.inr (Or.inl ⟨e, hencoding, by rw [hname]⟩))) hnew
    · exact ⟨_, rfl⟩

/-- Puts parameters one after the other. -/
def putAll (r : Reading) (ps : List (String × String)) : Except MediaTypeError Reading :=
  ps.foldlM (fun r p => r.put p.1 p.2) r

theorem putAll_cons_eq_ok {p : String × String} :
    r.putAll (p :: ps) = .ok r' ↔ ∃ next, r.put p.1 p.2 = .ok next ∧ next.putAll ps = .ok r' := by
  rw [putAll, List.foldlM_cons, bind_eq_ok]
  rfl

theorem putAll_spec : ∀ {r : Reading}, r.putAll ps = .ok r' →
    (∀ x, x ∈ r'.pairs ↔ x ∈ r.pairs ∨ x ∈ ps) ∧
      r'.others = r.others ++ ps.filter fun x => !isReservedName x.1 := by
  induction ps with
  | nil =>
    intro r h
    cases h
    simp
  | cons p rest ih =>
    intro r h
    obtain ⟨next, hput, hrest⟩ := putAll_cons_eq_ok.mp h
    obtain ⟨hmem, hothers⟩ := put_spec hput
    obtain ⟨hmem', hothers'⟩ := ih hrest
    refine ⟨fun x => ?_, ?_⟩
    · rw [hmem', hmem, or_assoc, List.mem_cons]
    · rw [hothers', hothers, List.append_assoc, ← List.filter_append, List.singleton_append]

theorem exists_putAll (hnodup : (ps.map (·.1)).Nodup) : ∀ {r : Reading},
    (∀ x ∈ ps, x.1 ∉ r.pairs.map (·.1)) → ∃ r', r.putAll ps = .ok r' := by
  induction ps with
  | nil => exact fun _ => ⟨_, rfl⟩
  | cons p rest ih =>
    intro r hnew
    obtain ⟨hp, hrest⟩ := List.forall_mem_cons.mp hnew
    obtain ⟨hother, hlater⟩ := List.nodup_cons.mp hnodup
    obtain ⟨next, hput⟩ : ∃ next, r.put p.1 p.2 = .ok next := exists_put hp
    obtain ⟨r', hr'⟩ := ih hlater (new_of_added (put_spec hput).1 hother hrest)
    exact ⟨r', putAll_cons_eq_ok.mpr ⟨next, hput, hr'⟩⟩

end Reading

section OfReading

variable {primary sub : String} {r : Reading} {m : MediaType}

/-- **What was read is what the media type holds.** -/
theorem mem_allParameters_of_ofParts (hothers : ∀ x ∈ r.others, keptPair x = x)
    (h : ofParts primary sub r.version r.encoding r.others = .ok m) (x : String × String) :
    x ∈ m.allParameters ↔ x ∈ r.pairs := by
  obtain ⟨-, -, hversion, hencoding, hparameters⟩ := ofParts_eq_ok.mp h
  have hkept : r.others.map keptPair = r.others :=
    (List.map_congr_left hothers).trans (List.map_id _)
  have hmem := (mem_pairs_addParameters hparameters).2 x
  rw [hkept, Parameters.pairs_empty, or_iff_right (List.not_mem_nil)] at hmem
  rw [mem_allParameters, Reading.mem_pairs, hversion, hencoding, hmem]

/-- **Parameters under names that differ make a media type**, and they are all that is in
it. -/
theorem exists_ofParts (hprimary : isToken (Text.trim primary) = true)
    (hsub : isToken (Text.trim sub) = true) {ps : List (String × String)}
    (hkept : ∀ x ∈ ps, isKeptName x.1 = true) (hnodup : (ps.map (·.1)).Nodup) :
    ∃ r m, Reading.start.putAll ps = .ok r ∧
      ofParts primary sub r.version r.encoding r.others = .ok m ∧
      m.primary.text = Text.asciiLower (Text.trim primary) ∧
      m.sub.text = Text.asciiLower (Text.trim sub) ∧ ∀ x, x ∈ m.allParameters ↔ x ∈ ps := by
  obtain ⟨r, hr⟩ := Reading.exists_putAll hnodup (r := .start) fun _ _ => List.not_mem_nil
  obtain ⟨hmem, hothers⟩ := Reading.putAll_spec hr
  have hsublist : r.others.Sublist ps := by
    rw [hothers]
    exact List.filter_sublist
  have hkeptOthers : ∀ x ∈ r.others, isKeptName x.1 = true := fun x hx =>
    hkept x (hsublist.subset hx)
  have hfree : ∀ x ∈ r.others, isReservedName x.1 = false := by
    intro x hx
    rw [hothers] at hx
    simpa using (List.mem_filter.mp hx).2
  obtain ⟨p, hp⟩ := exists_token (isKeptName_asciiLower.mpr hprimary)
  obtain ⟨s, hs⟩ := exists_token (isKeptName_asciiLower.mpr hsub)
  obtain ⟨parameters, hparameters⟩ := exists_addParameters (p := .empty) hkeptOthers hfree
    (hnodup.sublist (hsublist.map _)) fun _ _ => List.not_mem_nil
  let m : MediaType :=
    { primary := p, sub := s, version := r.version, encoding := r.encoding, parameters }
  have hm : ofParts primary sub r.version r.encoding r.others = .ok m :=
    ofParts_eq_ok.mpr ⟨readToken_eq_ok.mpr ⟨hprimary, hp⟩, readToken_eq_ok.mpr ⟨hsub, hs⟩, rfl,
      rfl, hparameters⟩
  refine ⟨r, m, hr, hm, hp, hs, fun x => ?_⟩
  have hmemr : x ∈ m.allParameters ↔ x ∈ r.pairs :=
    mem_allParameters_of_ofParts (fun y hy => keptPair_of_isKeptName (hkeptOthers y hy)) hm x
  rw [hmemr, hmem, Reading.pairs_start, or_iff_right List.not_mem_nil]

end OfReading

end MediaType

end EventWire

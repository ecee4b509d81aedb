import EventWire.Config.Source
import EventWire.Proofs.Config.Answers

/-!
# Configurations that can be had

A configuration comes from text, from a file, or from variables that name a file and override
its settings (`Obtained`). Text is validated once it is read. The variables change the charset
and the way XML is written after that; a charset that they name has to be a known one, and the
bindings stay as they are. So each way gives usable configurations only (`Obtained.usable`),
and each of them has a registry (`usable_tables`).
-/

namespace EventWire.Config

variable {c : Config} {read? lookup? : String → Option String}

theorem usable_standard : standard.Usable :=
  validate_iff.mp (by decide +kernel)

/-- What is written down is validated. -/
theorem usable_of_ofText {text : String} (h : ofText text = .ok c) : c.Usable := by
  unfold ofText at h
  split at h
  · cases h
  · next d hd =>
    obtain ⟨⟨⟩, hvalid, hdone⟩ := bind_eq_ok.mp h
    obtain rfl := Except.ok.inj hdone
    exact validate_iff.mp hvalid

theorem usable_of_ofFile {path : String} (h : ofFile read? path = .ok c) : c.Usable := by
  unfold ofFile at h
  split at h
  · cases h
  · exact usable_of_ofText h

/-- Another charset that is known leaves the bindings as they are. -/
theorem Usable.overrideEncoding {c' : Config} (h : c.Usable) {encoding : Option String}
    (hc' : c.overrideEncoding encoding = .ok c') : c'.Usable := by
  unfold Config.overrideEncoding at hc'
  split at hc'
  · obtain rfl := Except.ok.inj hc'
    exact h
  · split at hc'
    · cases hc'
    · next charset hcharset =>
      obtain rfl := Except.ok.inj hc'
      exact {
        charset := ⟨charset, mapError_eq_ok.mpr hcharset⟩
        names := h.names
        bases := h.bases
        defaults := h.defaults }

theorem Usable.overrideFragment {c' : Config} (h : c.Usable) {flag : Option String}
    (hc' : c.overrideFragment flag = .ok c') : c'.Usable := by
  unfold Config.overrideFragment at hc'
  split at hc'
  · obtain rfl := Except.ok.inj hc'
    exact h
  · split at hc'
    · cases hc'
    · obtain rfl := Except.ok.inj hc'
      exact h.perm rfl (List.Perm.refl _)

/-- **What variables ask for is usable**, whatever they override. -/
theorem usable_of_load (h : load read? lookup? = .ok c) : c.Usable := by
  have hoverrides {first : Config} (husable : first.Usable)
      (hlast : (do
        let c ← first.overrideEncoding (lookup? encodingKey)
        c.overrideFragment (lookup? fragmentKey)) = .ok c) : c.Usable := by
    obtain ⟨encoded, hencoded, hfragment⟩ := bind_eq_ok.mp hlast
    exact (husable.overrideEncoding hencoded).overrideFragment hfragment
  rw [load] at h
  split at h
  · obtain ⟨first, hfirst, hlast⟩ := bind_eq_ok.mp h
    exact hoverrides (usable_of_ofFile hfirst) hlast
  · exact hoverrides usable_standard h

/-- A configuration that can be had: from text, from a file, or from variables. -/
inductive Obtained (c : Config) : Prop where
  | text (text : String) (h : ofText text = .ok c)
  | file (read? : String → Option String) (path : String) (h : ofFile read? path = .ok c)
  | asked (read? lookup? : String → Option String) (h : load read? lookup? = .ok c)

theorem Obtained.usable (h : c.Obtained) : c.Usable := by
  cases h with
  | text text h => exact usable_of_ofText h
  | file read? path h => exact usable_of_ofFile h
  | asked read? lookup? h => exact usable_of_load h

/-- **Exactly the usable configurations are accepted, and only they can be had.** The defaults of
a usable one are the places of its default bindings, and there is a registry for it, whatever
the classes. -/
theorem usable_tables (c : Config) :
    (c.validate = .ok () ↔ c.Usable) ∧
      (c.Usable → ∃ ds, c.defaults = .ok ds ∧
        ∀ name i, ds.lookup name = some i ↔ c.DefaultAt name i) ∧
      (c.Obtained → c.Usable ∧ ∀ classes, ∃ r, c.registry classes = .ok r) :=
  ⟨validate_iff, Usable.exists_defaults_at,
    fun h => ⟨h.usable, fun classes => exists_registry h.usable classes⟩⟩

/-- A file that binds notes to plain text, and else to XML, in US-ASCII. -/
def notesFile : String :=
  "encoding = \"ascii\"\n[[types]]\nname = \"Note\"\ncodec = \"xml\"\n" ++
    "[[types]]\nname = \"Note\"\ncodec = \"text\"\ndefault = true\n"

/-- Variables that name it and ask for another charset, and for XML without a declaration. -/
def notesVariables : String → Option String
  | "ESC_SERIALIZATION_CONFIG" => some "notes.toml"
  | "ESC_ENCODING" => some " Latin1 "
  | "ESC_XML_FRAGMENT" => some "YES"
  | _ => none

/-- What they ask for. -/
def loaded : Config where
  encoding := " Latin1 "
  fragment := true
  bindings := [{ name := "Note", codec := .xml, marked := false },
    { name := "Note", codec := .text, marked := true }]

theorem usable_tables_loaded :
    load (fun _ => some notesFile) notesVariables = .ok loaded ∧ loaded.Usable ∧
      (∃ ds, loaded.defaults = .ok ds ∧ ds.lookup "Note" = some 1) ∧
      ∃ r, loaded.registry .empty = .ok r := by
  have hload : load (fun _ => some notesFile) notesVariables = .ok loaded :=
    toOption_eq_some.mp (by decide +kernel)
  obtain ⟨-, hdefaults, hobtained⟩ := usable_tables loaded
  obtain ⟨husable, hregistry⟩ := hobtained (.asked _ notesVariables hload)
  obtain ⟨ds, hds, hplace⟩ := hdefaults husable
  exact ⟨hload, husable, ⟨ds, hds, (hplace "Note" 1).mpr ⟨_, rfl, rfl, Or.inl rfl⟩⟩,
    hregistry .empty⟩

end EventWire.Config

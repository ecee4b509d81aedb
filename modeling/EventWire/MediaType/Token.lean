import EventWire.Text.Ascii

/-!
# Tokens of media types

Types, subtypes and parameter names are tokens: visible ASCII characters without
the separators. They are kept in small letters, so equality of tokens is equality
up to case. `Parameters` holds values under distinct tokens in the order of their
names; the two names with fields of their own are not among them.
-/

namespace EventWire

/-- The visible characters that separate tokens. -/
def tokenSeparators : List Char :=
  ['(', ')', '<', '>', '@', ',', ';', ':', '\\', '"', '/', '[', ']', '?', '=']

/-- True for the characters of tokens. -/
def isTokenChar (c : Char) : Bool :=
  0x21 ≤ c.toNat && c.toNat ≤ 0x7E && !tokenSeparators.contains c

/-- True for tokens. -/
def isToken (s : String) : Bool :=
  s ≠ "" && s.toList.all isTokenChar

/-- A token in small letters. -/
structure Token where
  text : String
  token : isToken text = true
  small : Text.asciiLower text = text
  deriving DecidableEq

namespace Token

/-- Reads a token of any case. -/
def ofText? (s : String) : Option Token :=
  let low := Text.asciiLower s
  if h : isToken low = true ∧ Text.asciiLower low = low then some ⟨low, h.1, h.2⟩ else none

end Token

/-- The name of the parameter for the version of the schema. -/
def versionName : String := "version"

/-- The name of the parameter for the charset. -/
def encodingName : String := "encoding"

/-- True for the names with fields of their own. -/
def isReservedName (s : String) : Bool :=
  s = versionName || s = encodingName

/-- Further parameters in the order of their names. -/
structure Parameters where
  entries : List (Token × String)
  sorted : entries.Pairwise fun a b => a.1.text < b.1.text
  unreserved : ∀ e ∈ entries, isReservedName e.1.text = false
  deriving DecidableEq

namespace Parameters

/-- No parameters. -/
def empty : Parameters where
  entries := []
  sorted := .nil
  unreserved := by simp

/-- The value under a name, of any case. -/
def find? (p : Parameters) (name : String) : Option String :=
  (p.entries.find? fun e => e.1.text = Text.asciiLower name).map (·.2)

/-- Puts an entry before the first one with a greater name. -/
def insertEntry (k : Token) (v : String) : List (Token × String) → List (Token × String)
  | [] => [(k, v)]
  | e :: rest => if k.text < e.1.text then (k, v) :: e :: rest else e :: insertEntry k v rest

theorem mem_insertEntry {k : Token} {v : String} {entries : List (Token × String)}
    {e : Token × String} : e ∈ insertEntry k v entries ↔ e = (k, v) ∨ e ∈ entries := by
  induction entries with
  | nil => simp [insertEntry]
  | cons x rest ih =>
    simp only [insertEntry]
    split
    · simp
    · simp only [List.mem_cons, ih]
      grind

theorem sorted_insertEntry {k : Token} {v : String} {entries : List (Token × String)}
    (sorted : entries.Pairwise fun a b => a.1.text < b.1.text)
    (fresh : ∀ e ∈ entries, e.1.text ≠ k.text) :
    (insertEntry k v entries).Pairwise fun a b => a.1.text < b.1.text := by
  induction entries with
  | nil => simp [insertEntry]
  | cons x rest ih =>
    simp only [insertEntry]
    split
    · rename_i h
      refine List.pairwise_cons.mpr ⟨fun e he => ?_, sorted⟩
      rcases List.mem_cons.mp he with rfl | he
      · exact h
      · exact String.lt_trans h ((List.pairwise_cons.mp sorted).1 e he)
    · rename_i h
      obtain ⟨first, later⟩ := List.pairwise_cons.mp sorted
      refine List.pairwise_cons.mpr ⟨fun e he => ?_, ih later fun e he => fresh e (by simp [he])⟩
      rcases mem_insertEntry.mp he with rfl | he
      · have ne := fresh x (by simp)
        have le := String.not_lt.mp h
        grind
      · exact first e he

/-- Adds a parameter; `none` when its name is there already. -/
def add? (p : Parameters) (k : Token) (v : String) (h : isReservedName k.text = false) :
    Option Parameters :=
  if fresh : ∀ e ∈ p.entries, e.1.text ≠ k.text then
    some
      { entries := insertEntry k v p.entries
        sorted := sorted_insertEntry p.sorted fresh
        unreserved := fun e he => by
          rcases mem_insertEntry.mp he with rfl | he
          · exact h
          · exact p.unreserved e he }
  else none

end Parameters

end EventWire

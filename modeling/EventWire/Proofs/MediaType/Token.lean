import EventWire.MediaType.Basic
import EventWire.Proofs.Blank

/-!
# Tokens of any case

A token is written in any case, but kept in small letters. Its characters are visible, none
of them separates tokens, and all of that is so whatever their case
(`isToken_asciiLower`). So reading a token succeeds exactly if there is one between the
blanks, and gives it in small letters (`readToken_eq_ok`).
-/

namespace EventWire

/-! ## Characters of tokens -/

theorem isTokenChar_bounds {c : Char} (h : isTokenChar c = true) :
    0x21 ≤ c.toNat ∧ c.toNat ≤ 0x7E ∧ c ∉ tokenSeparators := by
  simpa [isTokenChar, and_assoc] using h

theorem isBlank_of_isTokenChar {c : Char} (h : isTokenChar c = true) :
    Text.isBlank c = false := by
  obtain ⟨hlow, hhigh, -⟩ := isTokenChar_bounds h
  exact Text.not_isBlank_of_visible (by omega) (by omega)

theorem ne_of_isTokenChar {c d : Char} (h : isTokenChar c = true) (hd : d ∈ tokenSeparators) :
    c ≠ d :=
  fun e => (isTokenChar_bounds h).2.2 (e ▸ hd)

/-- A token has a first and a last character, and none but token characters. -/
theorem isToken_spec {s : String} (h : isToken s = true) :
    s.toList ≠ [] ∧ ∀ c ∈ s.toList, isTokenChar c = true := by
  simp only [isToken, Bool.and_eq_true, List.all_eq_true, decide_eq_true_eq] at h
  exact ⟨fun e => h.1 (String.toList_eq_nil_iff.mp e), h.2⟩

theorem not_mem_of_isToken {s : String} (h : isToken s = true) {d : Char}
    (hd : d ∈ tokenSeparators) : d ∉ s.toList :=
  fun hmem => ne_of_isTokenChar ((isToken_spec h).2 d hmem) hd rfl

/-- A token begins and ends with a character that is no blank. -/
theorem ends_of_isToken {s : String} (h : isToken s = true) :
    (∀ c, s.toList.head? = some c → Text.isBlank c = false) ∧
      ∀ c, s.toList.getLast? = some c → Text.isBlank c = false :=
  ⟨fun c hc => isBlank_of_isTokenChar ((isToken_spec h).2 c (List.mem_of_head? hc)),
    fun c hc => isBlank_of_isTokenChar ((isToken_spec h).2 c (List.mem_of_getLast? hc))⟩

/-- There are no blanks to trim at the ends of a token. -/
theorem trimChars_of_isToken {s : String} (h : isToken s = true) :
    Text.trimChars s.toList = s.toList :=
  Text.trimChars_eq_self (ends_of_isToken h).1 (ends_of_isToken h).2

theorem trim_of_isToken {s : String} (h : isToken s = true) : Text.trim s = s := by
  rw [Text.trim, trimChars_of_isToken h, String.ofList_toList]

/-! ## Case -/

/-- No letter separates tokens, so a character is one of tokens in both cases or in none. -/
theorem isTokenChar_toLower (c : Char) : isTokenChar c.toLower = isTokenChar c := by
  rcases Text.toLower_cases c with ⟨-, hsame⟩ | ⟨hlow, hhigh, hsmall⟩
  · rw [hsame]
  · have hletter : ∀ d : Char, 0x41 ≤ d.toNat ∧ d.toNat ≤ 0x5A ∨ 0x61 ≤ d.toNat ∧ d.toNat ≤ 0x7A →
        isTokenChar d = true := by
      intro d hd
      have hnot : d ∉ tokenSeparators := by
        intro hmem
        simp only [tokenSeparators, List.mem_cons, List.not_mem_nil, or_false] at hmem
        rcases hmem with rfl | rfl | rfl | rfl | rfl | rfl | rfl | rfl | rfl | rfl | rfl | rfl |
          rfl | rfl | rfl <;> revert hd <;> decide
      simp only [isTokenChar, Bool.and_eq_true, decide_eq_true_eq, Bool.not_eq_true',
        List.contains_eq_mem, decide_eq_false_iff_not]
      exact ⟨⟨by omega, by omega⟩, hnot⟩
    have hsmallLetter : isTokenChar c.toLower = true := hletter _ (Or.inr (by omega))
    exact hsmallLetter.trans (hletter c (Or.inl ⟨hlow, hhigh⟩)).symm

theorem isToken_asciiLower (s : String) : isToken (Text.asciiLower s) = isToken s := by
  have hempty : (Text.asciiLower s = "") = (s = "") := by
    rw [← String.toList_eq_nil_iff, ← String.toList_eq_nil_iff, Text.asciiLower,
      String.toList_ofList, List.map_eq_nil_iff]
  have hchars : isTokenChar ∘ Char.toLower = isTokenChar := funext isTokenChar_toLower
  rw [isToken, isToken, Text.asciiLower, String.toList_ofList, List.all_map, hchars,
    ← Text.asciiLower]
  simp only [ne_eq, hempty]

/-- A token of any case is one in small letters. -/
theorem Token.ofText?_eq_some {s : String} {t : Token} :
    Token.ofText? s = some t ↔ isToken s = true ∧ t.text = Text.asciiLower s := by
  have hiff : (isToken (Text.asciiLower s) = true
      ∧ Text.asciiLower (Text.asciiLower s) = Text.asciiLower s) ↔ isToken s = true := by
    rw [isToken_asciiLower, Text.asciiLower_asciiLower]
    exact and_iff_left rfl
  unfold Token.ofText?
  dsimp only
  by_cases h : isToken s = true
  · rw [dif_pos (hiff.mpr h), Option.some.injEq]
    constructor
    · rintro rfl
      exact ⟨h, rfl⟩
    · rintro ⟨-, htext⟩
      cases t
      simp_all
  · rw [dif_neg (fun hlow => h (hiff.mp hlow))]
    constructor
    · intro hnone
      cases hnone
    · rintro ⟨htoken, -⟩
      exact absurd htoken h

/-- A text of visible characters, none of which separates tokens or is a capital. -/
structure SmallToken (s : String) : Prop where
  ne_empty : s ≠ ""
  visible : ∀ c ∈ s.toList, 0x21 ≤ c.toNat ∧ c.toNat ≤ 0x7E
  undivided : ∀ c ∈ s.toList, c ∉ tokenSeparators
  no_capital : ∀ c ∈ s.toList, ¬(0x41 ≤ c.toNat ∧ c.toNat ≤ 0x5A)

theorem Token.smallToken (t : Token) : SmallToken t.text := by
  obtain ⟨hne, hchars⟩ := isToken_spec t.token
  have hsmall : t.text.toList.map Char.toLower = t.text.toList.map id :=
    String.ofList_inj.mp (t.small.trans (by rw [List.map_id, String.ofList_toList]))
  refine ⟨fun e => hne (String.toList_eq_nil_iff.mpr e), fun c hc => ?_, fun c hc => ?_,
    fun c hc => ?_⟩
  · obtain ⟨hlow, hhigh, -⟩ := isTokenChar_bounds (hchars c hc)
    exact ⟨hlow, hhigh⟩
  · exact (isTokenChar_bounds (hchars c hc)).2.2
  · intro hcapital
    have hsame : c.toLower = c := List.map_inj_left.mp hsmall c hc
    rcases Text.toLower_cases c with ⟨hnot, -⟩ | ⟨-, -, hlower⟩
    · exact hnot hcapital
    · rw [hsame] at hlower
      omega

namespace MediaType

/-- **A token is read exactly if there is one between the blanks**, and it is read in small
letters. -/
theorem readToken_eq_ok {part : MediaTypePart} {s : String} {t : Token} :
    readToken part s = .ok t ↔
      isToken (Text.trim s) = true ∧ t.text = Text.asciiLower (Text.trim s) := by
  rw [← Token.ofText?_eq_some]
  unfold readToken
  dsimp only
  cases Token.ofText? (Text.trim s) with
  | none => exact ⟨fun h => (nomatch h), fun h => (nomatch h)⟩
  | some t' =>
    rw [Except.ok.injEq, Option.some.injEq]

end MediaType

end EventWire

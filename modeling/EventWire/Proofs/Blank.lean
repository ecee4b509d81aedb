import EventWire.Text.Ascii
import EventWire.Text.Blank

/-!
# Texts without blanks at their ends

Trimming leaves a text alone whose first and last characters are no blanks
(`trimChars_eq_self`), takes the blanks around it away (`exists_trimChars`) and
leaves none (`trimChars_trimChars`). It does not matter whether a text is trimmed before
or after its capitals are made small (`asciiLower_trim`).
-/

namespace EventWire.Text

theorem dropEndWhile_eq_self {p : Char → Bool} {cs : List Char}
    (h : ∀ c, cs.getLast? = some c → p c = false) : dropEndWhile p cs = cs := by
  unfold dropEndWhile
  cases hr : cs.reverse with
  | nil => rw [List.dropWhile_nil, ← hr, List.reverse_reverse]
  | cons c rest =>
    have hlast : cs.getLast? = some c := by rw [← List.head?_reverse, hr]; rfl
    rw [List.dropWhile_cons, h c hlast, if_neg (by decide), ← hr, List.reverse_reverse]

theorem dropWhile_eq_self {p : Char → Bool} {cs : List Char}
    (h : ∀ c, cs.head? = some c → p c = false) : cs.dropWhile p = cs := by
  cases cs with
  | nil => rfl
  | cons c rest => rw [List.dropWhile_cons, h c rfl, if_neg (by decide)]

/-- Trimming changes nothing where there is nothing to trim. -/
theorem trimChars_eq_self {cs : List Char} (hfirst : ∀ c, cs.head? = some c → isBlank c = false)
    (hlast : ∀ c, cs.getLast? = some c → isBlank c = false) : trimChars cs = cs := by
  rw [trimChars, dropWhile_eq_self hfirst, dropEndWhile_eq_self hlast]

theorem trimChars_of_ends {cs : List Char} {first last : Char} (hfirst : cs.head? = some first)
    (hlast : cs.getLast? = some last) (hf : isBlank first = false) (hl : isBlank last = false) :
    trimChars cs = cs := by
  refine trimChars_eq_self (fun c hc => ?_) (fun c hc => ?_)
  · rw [← Option.some.inj (hfirst.symm.trans hc)]
    exact hf
  · rw [← Option.some.inj (hlast.symm.trans hc)]
    exact hl

/-- A text with a character that is no blank does not hold blanks alone. -/
theorem not_blankOnly_of_mem {c : Char} {cs : List Char} (h : c ∈ cs) (hc : isBlank c = false) :
    blankOnly cs = false := by
  rw [blankOnly, List.all_eq_false]
  exact ⟨c, h, by rw [hc]; decide⟩

/-! ## Blanks around a text -/

theorem trimChars_of_blankOnly {cs : List Char} (h : blankOnly cs = true) : trimChars cs = [] := by
  have hdrop : (cs ++ []).dropWhile isBlank = [] :=
    List.dropWhile_append_of_pos (List.all_eq_true.mp h)
  rw [List.append_nil] at hdrop
  rw [trimChars, hdrop]
  rfl

theorem trimChars_append_blanks (cs : List Char) {back : List Char} (h : blankOnly back = true) :
    trimChars (cs ++ back) = trimChars cs := by
  rw [trimChars, trimChars, List.dropWhile_append]
  split
  · next hnil =>
    have hblank : trimChars back = [] := trimChars_of_blankOnly h
    rw [trimChars] at hblank
    rw [List.isEmpty_iff.mp hnil, hblank]
    rfl
  · have hback : ∀ c ∈ back.reverse, isBlank c = true := fun c hc =>
      List.all_eq_true.mp h c (List.mem_reverse.mp hc)
    rw [dropEndWhile, List.reverse_append, List.dropWhile_append_of_pos hback, dropEndWhile]

theorem trimChars_blanks_append {front : List Char} (h : blankOnly front = true)
    (cs : List Char) : trimChars (front ++ cs) = trimChars cs := by
  rw [trimChars, List.dropWhile_append_of_pos (List.all_eq_true.mp h), trimChars]

theorem not_mem_of_blankOnly {cs : List Char} (h : blankOnly cs = true) {d : Char}
    (hd : isBlank d = false) : d ∉ cs := by
  intro hmem
  rw [List.all_eq_true.mp h d hmem] at hd
  cases hd

theorem dropWhile_eq_trimChars_append (cs : List Char) : cs.dropWhile isBlank
    = trimChars cs ++ ((cs.dropWhile isBlank).reverse.takeWhile isBlank).reverse := by
  rw [trimChars, dropEndWhile, ← List.reverse_append, List.takeWhile_append_dropWhile,
    List.reverse_reverse]

/-- A text is what is left of it when it is trimmed, between blanks. -/
theorem exists_trimChars (cs : List Char) : ∃ front back, blankOnly front = true ∧
    blankOnly back = true ∧ cs = front ++ trimChars cs ++ back := by
  refine ⟨cs.takeWhile isBlank, ((cs.dropWhile isBlank).reverse.takeWhile isBlank).reverse,
    List.all_takeWhile, ?_, ?_⟩
  · rw [blankOnly, List.all_reverse, List.all_takeWhile]
  · rw [List.append_assoc, ← dropWhile_eq_trimChars_append, List.takeWhile_append_dropWhile]

theorem head?_trimChars {cs : List Char} {c : Char} (h : (trimChars cs).head? = some c) :
    isBlank c = false := by
  -- What is left begins where the blanks in front end.
  have hnot := List.head?_dropWhile_not isBlank cs
  rw [dropWhile_eq_trimChars_append, List.head?_append, h, Option.some_or] at hnot
  simpa using hnot

theorem getLast?_trimChars {cs : List Char} {c : Char} (h : (trimChars cs).getLast? = some c) :
    isBlank c = false := by
  rw [trimChars, dropEndWhile, List.getLast?_reverse] at h
  have hnot := List.head?_dropWhile_not isBlank (cs.dropWhile isBlank).reverse
  rw [h] at hnot
  simpa using hnot

theorem trimChars_trimChars (cs : List Char) : trimChars (trimChars cs) = trimChars cs :=
  trimChars_eq_self (fun _ => head?_trimChars) fun _ => getLast?_trimChars

/-! ## Case -/

/-- A capital becomes the small letter 32 places behind it, and any other character stays. -/
theorem toLower_cases (c : Char) :
    (¬(0x41 ≤ c.toNat ∧ c.toNat ≤ 0x5A) ∧ c.toLower = c) ∨
      (0x41 ≤ c.toNat ∧ c.toNat ≤ 0x5A ∧ c.toLower.toNat = c.toNat + 0x20) := by
  unfold Char.toLower
  split
  · next hcapital =>
    have hlow : 0x41 ≤ c.toNat := hcapital.1
    have hhigh : c.toNat ≤ 0x5A := hcapital.2
    refine Or.inr ⟨hlow, hhigh, ?_⟩
    have hval : c.val.toNat = c.toNat := rfl
    show (c.val + ('a'.val - 'A'.val)).toNat = _
    rw [UInt32.toNat_add, hval]
    show (c.toNat + 0x20) % 2 ^ 32 = _
    omega
  · next hother => exact Or.inl ⟨fun hcapital => hother hcapital, rfl⟩

theorem toLower_toLower (c : Char) : c.toLower.toLower = c.toLower := by
  rcases toLower_cases c with ⟨-, hsame⟩ | ⟨hlow, hhigh, hsmall⟩
  · rw [hsame, hsame]
  · rcases toLower_cases c.toLower with ⟨-, hsame⟩ | ⟨-, hhigh', -⟩
    · exact hsame
    · omega

theorem asciiLower_asciiLower (s : String) : asciiLower (asciiLower s) = asciiLower s := by
  have hcomp : Char.toLower ∘ Char.toLower = Char.toLower := funext toLower_toLower
  rw [asciiLower, asciiLower, String.toList_ofList, List.map_map, hcomp]

/-- Behind the space, ASCII has no blanks. -/
theorem not_isBlank_of_visible {c : Char} (hlow : 0x20 < c.toNat) (hhigh : c.toNat < 0x80) :
    isBlank c = false := by
  rw [isBlank, Bool.eq_false_iff, ne_eq, inRanges_iff]
  rintro ⟨r, hr, hfrom, hto⟩
  simp only [blankRanges, List.mem_cons, List.not_mem_nil, or_false] at hr
  rcases hr with rfl | rfl | rfl | rfl | rfl | rfl | rfl | rfl | rfl | rfl <;> omega

/-- A character is a blank whatever its case. -/
theorem isBlank_toLower (c : Char) : isBlank c.toLower = isBlank c := by
  rcases toLower_cases c with ⟨-, hsame⟩ | ⟨hlow, hhigh, hsmall⟩
  · rw [hsame]
  · have hletter : isBlank c = false := not_isBlank_of_visible (by omega) (by omega)
    rw [hletter]
    exact not_isBlank_of_visible (by omega) (by omega)

theorem dropWhile_isBlank_toLower (cs : List Char) :
    (cs.map Char.toLower).dropWhile isBlank = (cs.dropWhile isBlank).map Char.toLower := by
  have hsame : isBlank ∘ Char.toLower = isBlank := funext isBlank_toLower
  rw [List.dropWhile_map, hsame]

theorem trimChars_toLower (cs : List Char) :
    trimChars (cs.map Char.toLower) = (trimChars cs).map Char.toLower := by
  rw [trimChars, trimChars, dropEndWhile, dropEndWhile, dropWhile_isBlank_toLower,
    ← List.map_reverse, dropWhile_isBlank_toLower, List.map_reverse]

/-- Trimming and making capitals small do not get in each other's way. -/
theorem asciiLower_trim (s : String) : asciiLower (trim s) = trim (asciiLower s) := by
  rw [asciiLower, trim, String.toList_ofList, trim, asciiLower, String.toList_ofList,
    trimChars_toLower]

end EventWire.Text

import EventWire.EventId

/-!
# Event ids read back

The usual written form of an id has 36 characters, so of the four forms it is read as
the hyphenated one. Its groups put together are the 32 digits (`ofHyphenated?_groups`),
and each digit reads back by itself.
-/

namespace EventWire.EventId

theorem readDigits?_digitChars (ds : List (Fin 16)) : readDigits? (digitChars ds) = some ds := by
  induction ds with
  | nil => rfl
  | cons d rest ih =>
    have hrest : readDigits? (rest.map fun d => hexDigit d.val) = some rest := ih
    rw [digitChars, List.map_cons, readDigits?, hexValue?_hexDigit, hrest]
    simp only [d.isLt, dif_pos]

theorem length_digitChars (ds : List (Fin 16)) : (digitChars ds).length = ds.length :=
  List.length_map ..

theorem digitChars_append (as bs : List (Fin 16)) :
    digitChars (as ++ bs) = digitChars as ++ digitChars bs :=
  List.map_append

theorem ofSimple?_digitChars (id : EventId) : ofSimple? (digitChars id.digits) = some id := by
  rw [ofSimple?, readDigits?_digitChars]
  simp only [id.complete, dif_pos]

/-- The reader of the hyphenated form puts the groups together. -/
theorem ofHyphenated?_groups {a b c d e : List Char} (ha : a.length = 8) (hb : b.length = 4)
    (hc : c.length = 4) (hd : d.length = 4) (he : e.length = 12) :
    ofHyphenated? (a ++ '-' :: b ++ '-' :: c ++ '-' :: d ++ '-' :: e)
      = ofSimple? (a ++ b ++ c ++ d ++ e) := by
  unfold ofHyphenated?
  rw [if_pos]
  · simp [List.drop_append, List.drop_of_length_le, ha, hb, hc, hd]
  · simp [ha, hb, hc, hd, he]

/-- **An event id is read back from its written form.** -/
theorem ofText_text (id : EventId) : ofText id.text = .ok id := by
  have hlen := id.complete
  have h1 : (digitChars (id.digits.take 8)).length = 8 := by simp [length_digitChars, hlen]
  have h2 : (digitChars ((id.digits.drop 8).take 4)).length = 4 := by
    simp [length_digitChars, hlen]
  have h3 : (digitChars ((id.digits.drop 12).take 4)).length = 4 := by
    simp [length_digitChars, hlen]
  have h4 : (digitChars ((id.digits.drop 16).take 4)).length = 4 := by
    simp [length_digitChars, hlen]
  have h5 : (digitChars (id.digits.drop 20)).length = 12 := by simp [length_digitChars, hlen]
  have htotal : (hyphenate id.digits).length = 36 := by
    simp [hyphenate, h1, h2, h3, h4, h5]
  have hjoin : id.digits.take 8 ++ (id.digits.drop 8).take 4 ++ (id.digits.drop 12).take 4
      ++ (id.digits.drop 16).take 4 ++ id.digits.drop 20 = id.digits := by
    rw [← List.take_add, ← List.take_add, ← List.take_add, List.take_append_drop]
  -- 36 characters leave one form of the four, the one with hyphens.
  have hread : ofHyphenated? (hyphenate id.digits) = some id := by
    rw [hyphenate, ofHyphenated?_groups h1 h2 h3 h4 h5, ← digitChars_append,
      ← digitChars_append, ← digitChars_append, ← digitChars_append, hjoin,
      ofSimple?_digitChars]
  have hne : id.text ≠ "" := by
    intro h
    have hnil : hyphenate id.digits = [] := by
      rw [← String.toList_ofList (l := hyphenate id.digits)]
      exact congrArg String.toList h
    rw [hnil] at htotal
    exact absurd htotal (by decide)
  rw [ofText, if_neg hne, text, String.toList_ofList, ofChars?, if_neg (by omega),
    if_pos htotal, hread]

end EventWire.EventId

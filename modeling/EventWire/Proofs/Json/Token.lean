import EventWire.Json.Token
import Mathlib.Data.List.TakeWhile

/-!
# Tokens are read as they are written

A string is read as what it was written for, whatever follows its quote
(`next?_string`). A number is read to the end when what follows does not go on with
it (`Ends`): then the text of a number that is read alone is read in the same way
(`next?_number_append`). Integers always are read back (`next?_integer`). Whether a
double is, is up to the digits that are printed for it and to the rounding of the
reader, which need not be to the nearest double.
-/

namespace EventWire.Json

open Decimal (integerDigits digitsOf)

/-! ## Strings -/

/-- How a character comes out of a string: controls without a short escape as units. -/
def pieceOf (c : Char) : Piece :=
  if c.toNat < 0x20 ∧ c ∉ ['\n', '\r', '\t', '\x08', '\x0c'] then .unit c.toNat else .char c

theorem escapeChar_cases (c : Char) :
    c ∈ ['"', '\\', '\n', '\r', '\t', '\x08', '\x0c'] ∨
      (c ≠ '"' ∧ c ≠ '\\' ∧ c ∉ ['\n', '\r', '\t', '\x08', '\x0c'] ∧
        escapeChar c = if c.toNat < 0x20 then
          ['\\', 'u', '0', '0', hexDigit (c.toNat / 16), hexDigit (c.toNat % 16)] else [c]) := by
  by_cases h : c ∈ ['"', '\\', '\n', '\r', '\t', '\x08', '\x0c']
  · exact Or.inl h
  · simp only [List.mem_cons, List.not_mem_nil, or_false, not_or] at h
    obtain ⟨hquote, hback, hn, hr, ht, hb, hf⟩ := h
    refine Or.inr ⟨hquote, hback, by simp [hn, hr, ht, hb, hf], ?_⟩
    rw [escapeChar]
    · exact hquote
    · exact hback
    · exact hn
    · exact hr
    · exact ht
    · exact hb
    · exact hf

theorem unitValue?_control {n : Nat} (h : n < 0x20) :
    unitValue? '0' '0' (hexDigit (n / 16)) (hexDigit (n % 16)) = some n := by
  have hhigh := hexValue?_hexDigit ⟨n / 16, by omega⟩
  have hlow := hexValue?_hexDigit ⟨n % 16, by omega⟩
  have hzero : hexValue? '0' = some 0 := by decide
  dsimp only at hhigh hlow
  rw [unitValue?, hzero, hhigh, hlow]
  show some (((0 * 16 + 0) * 16 + n / 16) * 16 + n % 16) = some n
  congr 1
  omega

/-- Reading goes on behind what one character was written as. -/
theorem scanString_escapeChar (c : Char) (rest : List Char) :
    scanString (escapeChar c ++ rest)
      = (scanString rest).map fun (pieces, after) => (pieceOf c :: pieces, after) := by
  rcases escapeChar_cases c with hshort | ⟨hquote, hback, hplain, hescape⟩
  · simp only [List.mem_cons, List.not_mem_nil, or_false] at hshort
    rcases hshort with rfl | rfl | rfl | rfl | rfl | rfl | rfl
    all_goals
      cases h : scanString rest with
      | none => simp [escapeChar, scanString, shortEscape?, h]
      | some p => simp [escapeChar, scanString, shortEscape?, h, pieceOf]
  · rw [hescape]
    by_cases hcontrol : c.toNat < 0x20
    · -- Read by its number, which is put together with its neighbours later on.
      rw [if_pos hcontrol, pieceOf, if_pos ⟨hcontrol, hplain⟩]
      show scanString ('\\' :: 'u' :: '0' :: '0' :: _ :: _ :: rest) = _
      rw [scanString, unitValue?_control hcontrol]
      cases scanString rest with
      | none => rfl
      | some p => rfl
    · rw [if_neg hcontrol, pieceOf, if_neg (fun h => hcontrol h.1), List.singleton_append,
        scanString]
      · rw [if_neg (by simp [hcontrol, hback])]
        cases scanString rest with
        | none => rfl
        | some p => rfl
      · exact hquote
      · exact fun _ _ _ _ _ e => absurd e hback
      · exact fun _ _ e => absurd e hback

theorem joinPieces_pieceOf (c : Char) (pieces : List Piece) :
    joinPieces (pieceOf c :: pieces) = (joinPieces pieces).map (c :: ·) := by
  unfold pieceOf
  split
  · next h =>
    rw [joinPieces.eq_def]
    dsimp only
    rw [if_neg (by omega), if_neg (by omega), Char.ofNat_toNat]
  · rfl

theorem scanString_escaped (cs rest : List Char) :
    scanString (cs.flatMap escapeChar ++ '"' :: rest) = some (cs.map pieceOf, rest) := by
  induction cs with
  | nil => rfl
  | cons c more ih =>
    rw [List.flatMap_cons, List.append_assoc, scanString_escapeChar, ih]
    rfl

theorem joinPieces_pieces (cs : List Char) : joinPieces (cs.map pieceOf) = some cs := by
  induction cs with
  | nil => rfl
  | cons c more ih =>
    rw [List.map_cons, joinPieces_pieceOf, ih]
    rfl

/-- **A string is read as what it was written for.** -/
theorem next?_string (s : String) (rest : List Char) :
    Token.next? (stringText s ++ rest) = some (.string s, rest) := by
  have htext : stringText s ++ rest = '"' :: (s.toList.flatMap escapeChar ++ '"' :: rest) := by
    rw [stringText, List.append_assoc]
    rfl
  have htoken : stringToken (s.toList.map pieceOf) = .string s := by
    unfold stringToken
    rw [joinPieces_pieces]
    dsimp only
    rw [String.ofList_toList]
  rw [htext, Token.next?, scanString_escaped, Option.map_some]
  dsimp only
  rw [htoken]

/-! ## Where a number ends -/

/-- A number does not go on with this text. -/
def Ends (rest : List Char) : Prop :=
  ∀ c, rest.head? = some c → c.isDigit = false ∧ c ≠ '.' ∧ c ≠ 'e' ∧ c ≠ 'E'

theorem ends_nil : Ends [] := by
  intro c h
  cases h

section Ends

variable {rest : List Char}

theorem scanDigits_append (h : Ends rest) (cs : List Char) :
    scanDigits (cs ++ rest) = ((scanDigits cs).1, (scanDigits cs).2 ++ rest) := by
  unfold scanDigits
  induction cs with
  | nil =>
    cases rest with
    | nil => rfl
    | cons c more =>
      have hc := (h c rfl).1
      rw [List.nil_append, List.takeWhile_cons, List.dropWhile_cons, hc]
      rfl
  | cons c cs ih =>
    obtain ⟨htake, hdrop⟩ := Prod.mk.inj ih
    cases hc : c.isDigit with
    | true =>
      simp only [List.cons_append, List.takeWhile_cons, List.dropWhile_cons, hc, if_true,
        List.map_cons, htake, hdrop]
    | false =>
      simp only [List.cons_append, List.takeWhile_cons, List.dropWhile_cons, hc]
      rfl

theorem scanFraction_append (h : Ends rest) {cs after : List Char} {fraction : Option (List Nat)}
    (hcs : scanFraction cs = some (fraction, after)) :
    scanFraction (cs ++ rest) = some (fraction, after ++ rest) := by
  unfold scanFraction at hcs
  split at hcs
  · next cs =>
    rw [List.cons_append, scanFraction, scanDigits_append h]
    split at hcs
    · cases hcs
    · next hdigits =>
      cases hcs
      rw [hdigits]
      dsimp only
      split
      · next he => exact absurd (Prod.mk.inj he).1 (by assumption)
      · next he => cases he; rfl
  · next hdot =>
    -- No point stood there, and what follows does not bring one.
    cases hcs
    rw [scanFraction]
    intro more e
    cases cs with
    | nil => exact (h '.' (by rw [show rest = '.' :: more from e]; rfl)).2.1 rfl
    | cons c cs =>
      cases e
      exact hdot cs rfl

theorem scanPower_append (h : Ends rest) {negative : Bool} {cs after : List Char}
    {power : Option (Bool × List Nat)} (hcs : scanPower negative cs = some (power, after)) :
    scanPower negative (cs ++ rest) = some (power, after ++ rest) := by
  unfold scanPower at hcs ⊢
  rw [scanDigits_append h]
  split at hcs
  · cases hcs
  · next hdigits =>
    cases hcs
    rw [hdigits]
    dsimp only
    split
    · next he => exact absurd (Prod.mk.inj he).1 (by assumption)
    · next he => cases he; rfl

theorem scanExponent_cons (c : Char) (rest : List Char) :
    scanExponent (c :: rest) =
      if c = 'e' || c = 'E' then
        match rest with
        | '+' :: rest => scanPower false rest
        | '-' :: rest => scanPower true rest
        | _ => scanPower false rest
      else some (none, c :: rest) := rfl

theorem scanExponent_append (h : Ends rest) {cs after : List Char}
    {power : Option (Bool × List Nat)} (hcs : scanExponent cs = some (power, after)) :
    scanExponent (cs ++ rest) = some (power, after ++ rest) := by
  cases cs with
  | nil =>
    rw [scanExponent] at hcs
    cases hcs
    cases rest with
    | nil => rfl
    | cons c more =>
      obtain ⟨-, -, hsmall, hlarge⟩ := h c rfl
      rw [List.nil_append, scanExponent_cons, if_neg (by simp [hsmall, hlarge])]
  | cons c cs =>
    rw [scanExponent_cons] at hcs
    rw [List.cons_append, scanExponent_cons]
    split at hcs
    · next hmark =>
      rw [if_pos hmark]
      split at hcs
      · exact scanPower_append h hcs
      · exact scanPower_append h hcs
      · next hplus hminus =>
        -- Without a sign the power has a first digit, and that stays the first character.
        cases cs with
        | nil => cases hcs
        | cons d cs =>
          have hread := scanPower_append h hcs
          rw [List.cons_append] at hread ⊢
          split
          · next e => cases e; exact absurd rfl (hplus _)
          · next e => cases e; exact absurd rfl (hminus _)
          · exact hread
    · next hmark =>
      rw [if_neg hmark]
      cases hcs
      rfl

/-- **What follows a number does not change how it is read.** -/
theorem scanMagnitude_append (h : Ends rest) {negative : Bool} {cs after : List Char} {l : Literal}
    (hcs : scanMagnitude negative cs = some (l, after)) :
    scanMagnitude negative (cs ++ rest) = some (l, after ++ rest) := by
  unfold scanMagnitude at hcs ⊢
  rw [scanDigits_append h]
  dsimp only at hcs ⊢
  split at hcs
  · cases hcs
  · next hwhole =>
    rw [if_neg hwhole]
    obtain ⟨⟨fraction, tail⟩, hfraction, hrest⟩ := Option.bind_eq_some_iff.mp hcs
    obtain ⟨⟨exponent, tail'⟩, hexponent, hdone⟩ := Option.bind_eq_some_iff.mp hrest
    cases hdone
    show (scanFraction ((scanDigits cs).2 ++ rest)).bind _ = _
    rw [scanFraction_append h hfraction, Option.bind_some]
    dsimp only
    show (scanExponent (tail ++ rest)).bind _ = _
    rw [scanExponent_append h hexponent, Option.bind_some]
    rfl

end Ends

/-- A number begins with a digit when it has no sign. -/
theorem scanMagnitude_head {negative : Bool} {cs after : List Char} {l : Literal}
    (h : scanMagnitude negative cs = some (l, after)) :
    ∃ c more, cs = c :: more ∧ c.isDigit = true := by
  cases cs with
  | nil => cases h
  | cons c more =>
    refine ⟨c, more, rfl, ?_⟩
    cases hc : c.isDigit with
    | true => rfl
    | false =>
      have hempty : (scanDigits (c :: more)).1 = [] := by
        rw [scanDigits, List.takeWhile_cons, hc]
        rfl
      unfold scanMagnitude at h
      dsimp only at h
      rw [hempty, List.isEmpty_nil, Bool.true_or, if_pos rfl] at h
      cases h

/-- A text that begins with a digit is read as a number. -/
theorem next?_of_isDigit {c : Char} (h : c.isDigit = true) (more : List Char) :
    Token.next? (c :: more)
      = (scanMagnitude false (c :: more)).map fun (l, after) => (numberToken l, after) := by
  have hne : ∀ {x : Char}, x.isDigit = false →
      ∀ {rest : List Char}, c :: more = x :: rest → False := by
    intro x hx rest e
    cases e
    exact Bool.false_ne_true (hx.symm.trans h)
  rw [Token.next?.eq_def]
  split
  · next e => exact (hne (by decide) e).elim
  · next e => exact (hne (by decide) e).elim
  · next e => exact (hne (by decide) e).elim
  · next e => exact (hne (by decide) e).elim
  · next e => exact (hne (by decide) e).elim
  · next e => exact (hne (by decide) e).elim
  · next e => exact (hne (by decide) e).elim
  · next e => exact (hne (by decide) e).elim
  · next e => exact (hne (by decide) e).elim
  · next e => exact (hne (by decide) e).elim
  · next e => exact (hne (by decide) e).elim
  · rfl

/-- A text that is read as a number is a magnitude, perhaps behind a minus sign. -/
theorem next?_eq_number {cs after : List Char} {n : Number}
    (h : Token.next? cs = some (.number n, after)) :
    ∃ negative l, numberToken l = .number n ∧
      ((negative = true ∧ ∃ more, cs = '-' :: more ∧ scanMagnitude true more = some (l, after)) ∨
        (negative = false ∧ scanMagnitude false cs = some (l, after))) := by
  rw [Token.next?.eq_def] at h
  split at h
  · cases h
  · cases h
  · cases h
  · cases h
  · cases h
  · cases h
  · cases h
  · cases h
  · cases h
  · obtain ⟨⟨pieces, tail⟩, -, e⟩ := Option.map_eq_some_iff.mp h
    have htoken := (Prod.mk.inj e).1
    unfold stringToken at htoken
    split at htoken
    · cases htoken
    · cases htoken
  · obtain ⟨⟨l, tail⟩, hl, e⟩ := Option.map_eq_some_iff.mp h
    obtain ⟨htoken, rfl⟩ := Prod.mk.inj e
    exact ⟨true, l, htoken, Or.inl ⟨rfl, _, rfl, hl⟩⟩
  · obtain ⟨⟨l, tail⟩, hl, e⟩ := Option.map_eq_some_iff.mp h
    obtain ⟨htoken, rfl⟩ := Prod.mk.inj e
    exact ⟨false, l, htoken, Or.inr ⟨rfl, hl⟩⟩

/-- **The text of a number that is read alone is read in front of other tokens.** -/
theorem next?_number_append {cs rest : List Char} {n : Number}
    (h : Token.next? cs = some (.number n, [])) (hrest : Ends rest) :
    Token.next? (cs ++ rest) = some (.number n, rest) := by
  obtain ⟨negative, l, htoken, hread⟩ := next?_eq_number h
  rcases hread with ⟨-, more, rfl, hmagnitude⟩ | ⟨-, hmagnitude⟩
  · show (scanMagnitude true (more ++ rest)).map _ = _
    rw [scanMagnitude_append hrest hmagnitude, Option.map_some]
    dsimp only
    rw [htoken, List.nil_append]
  · obtain ⟨c, more, rfl, hdigit⟩ := scanMagnitude_head hmagnitude
    rw [List.cons_append, next?_of_isDigit hdigit, ← List.cons_append,
      scanMagnitude_append hrest hmagnitude, Option.map_some]
    dsimp only
    rw [htoken, List.nil_append]

/-! ## Integers -/

/-- The digits of a number as numbers. -/
def digitValues (cs : List Char) : List Nat :=
  cs.map fun c => c.toNat - '0'.toNat

theorem le_ofDigitChars (cs : List Char) : ∀ n, n ≤ Nat.ofDigitChars 10 cs n := by
  induction cs with
  | nil => intro n; rw [Nat.ofDigitChars_nil]
  | cons c rest ih =>
    intro n
    rw [Nat.ofDigitChars_cons]
    exact Nat.le_trans (by omega) (ih _)

/-- Digits are taken on to the end when the number fits. -/
theorem takeFitting_digitValues (cs : List Char) :
    ∀ n, Nat.ofDigitChars 10 cs n < 0x10000000000000000 →
      takeFitting n (digitValues cs) = (Nat.ofDigitChars 10 cs n, cs.length) := by
  induction cs with
  | nil => intro n _; rw [Nat.ofDigitChars_nil]; rfl
  | cons c rest ih =>
    intro n h
    rw [Nat.ofDigitChars_cons] at h ⊢
    have hfits := Nat.lt_of_le_of_lt (le_ofDigitChars rest _) h
    have hrest := ih _ h
    rw [Nat.mul_comm] at hfits hrest ⊢
    rw [digitValues, List.map_cons, takeFitting, if_pos hfits]
    rw [digitValues] at hrest
    rw [hrest, List.length_cons]

theorem isDigit_of_mem_digitsOf {n : Nat} {c : Char} (h : c ∈ digitsOf n) : c.isDigit = true :=
  Nat.isDigit_of_mem_toDigits (by decide) (by decide) h

theorem scanDigits_digitsOf (n : Nat) :
    scanDigits (digitsOf n) = (digitValues (digitsOf n), []) := by
  have hall : ∀ c ∈ digitsOf n, c.isDigit = true := fun c hc => isDigit_of_mem_digitsOf hc
  have htake : (digitsOf n).takeWhile Char.isDigit = digitsOf n :=
    List.takeWhile_eq_self_iff.mpr hall
  have hdrop : (digitsOf n).dropWhile Char.isDigit = [] := List.dropWhile_eq_nil_iff.mpr hall
  rw [scanDigits, htake, hdrop]
  rfl

/-- No number but zero begins with a zero. -/
theorem head?_digitsOf (n : Nat) : 0 < n → (digitsOf n).head? ≠ some '0' := by
  induction n using Nat.strongRecOn with
  | ind n ih =>
    intro hpos
    by_cases hn : n < 10
    · rw [digitsOf, Nat.toDigits_of_lt_base hn, List.head?_cons]
      have hdigit : ∀ m < 10, 0 < m → m.digitChar ≠ '0' := by decide
      exact fun e => hdigit n hn hpos (Option.some.inj e)
    · have hge : 10 ≤ n := Nat.le_of_not_lt hn
      -- The first digit is that of the number without its last.
      have hfront := ih (n / 10) (Nat.div_lt_self hpos (by decide)) (Nat.div_pos hge (by decide))
      have hne : digitsOf (n / 10) ≠ [] := Nat.toDigits_ne_nil
      obtain ⟨c, more, hcons⟩ := List.exists_cons_of_ne_nil hne
      rw [digitsOf, Nat.toDigits_of_base_le (by decide) hge]
      rw [digitsOf] at hcons hfront
      rw [hcons] at hfront ⊢
      exact hfront

theorem digitValues_head {n : Nat} :
    ¬((digitValues (digitsOf n)).isEmpty || ((digitValues (digitsOf n)).head? = some 0 &&
      decide (1 < (digitValues (digitsOf n)).length))) = true := by
  have hne : digitsOf n ≠ [] := Nat.toDigits_ne_nil
  obtain ⟨c, more, hcons⟩ := List.exists_cons_of_ne_nil hne
  by_cases hn : n < 10
  · have hsingle : digitsOf n = [n.digitChar] := Nat.toDigits_of_lt_base hn
    rw [hsingle]
    simp [digitValues]
  · have hhead := head?_digitsOf n (by omega)
    have hdigit := isDigit_of_mem_digitsOf (n := n) (c := c) (hcons ▸ List.mem_cons_self ..)
    rw [hcons, List.head?_cons] at hhead
    have hc : c.toNat - '0'.toNat ≠ 0 := by
      intro e
      have hrange := Char.isDigit_iff_toNat.mp hdigit
      have h48 : '0'.toNat = 48 := rfl
      have hcode : c.toNat = '0'.toNat := by omega
      exact hhead (congrArg some (Char.toNat_inj.mp hcode))
    rw [hcons, digitValues, List.map_cons, List.isEmpty_cons, List.head?_cons]
    have hzero : c.toNat - 48 ≠ 0 := hc
    simp [hzero]

/-- The digits of a number behind a sign, with nothing after them. -/
def wholeLiteral (negative : Bool) (n : Nat) : Literal where
  negative := negative
  whole := digitValues (digitsOf n)
  fraction := none
  exponent := none

theorem scanMagnitude_digitsOf (negative : Bool) (n : Nat) :
    scanMagnitude negative (digitsOf n) = some (wholeLiteral negative n, []) := by
  unfold scanMagnitude
  rw [scanDigits_digitsOf]
  dsimp only
  rw [if_neg digitValues_head]
  rfl

/-- An integer of either sign has a value of its own. -/
theorem value?_wholeLiteral {i : Int} (low : -0x8000000000000000 ≤ i)
    (high : i < 0x10000000000000000) :
    (wholeLiteral (decide (i < 0)) i.natAbs).value? = some (.integer i low high) := by
  have hfits : Nat.ofDigitChars 10 (digitsOf i.natAbs) 0 < 0x10000000000000000 := by
    rw [digitsOf, Nat.ofDigitChars_ten_toDigits]
    omega
  have htake := takeFitting_digitValues (digitsOf i.natAbs) 0 hfits
  rw [digitsOf, Nat.ofDigitChars_ten_toDigits] at htake
  have hlength : (digitValues (digitsOf i.natAbs)).length - (digitsOf i.natAbs).length = 0 := by
    rw [digitValues, List.length_map, Nat.sub_self]
  rw [Literal.value?, wholeLiteral, digitsOf, htake]
  dsimp only
  rw [digitsOf] at hlength
  rw [if_pos hlength]
  by_cases hneg : i < 0
  · -- Only the literal of zero with a minus sign would be read as a double.
    have hne : i.natAbs ≠ 0 := by omega
    have hvalue : -(i.natAbs : Int) = i := by omega
    have hint : Number.ofInt? i = some (.integer i low high) := dif_pos ⟨low, high⟩
    rw [if_pos (decide_eq_true hneg), if_neg hne, hvalue, hint]
  · have hvalue : (i.natAbs : Int) = i := by omega
    have hint : Number.ofInt? i = some (.integer i low high) := dif_pos ⟨low, high⟩
    rw [if_neg (by simpa using hneg), hvalue, hint]

/-- **The text of an integer is read as the integer.** -/
theorem next?_integer {i : Int} (low : -0x8000000000000000 ≤ i) (high : i < 0x10000000000000000) :
    Token.next? (numberText (.integer i low high)) = some (.number (.integer i low high), []) := by
  have htoken : numberToken (wholeLiteral (decide (i < 0)) i.natAbs)
      = .number (.integer i low high) := by
    unfold numberToken
    rw [value?_wholeLiteral low high]
  rw [numberText, integerDigits]
  -- The sign is read apart from the digits, which are those of the magnitude.
  by_cases hneg : i < 0
  · rw [decide_eq_true hneg] at htoken
    rw [if_pos hneg]
    show (scanMagnitude true (digitsOf i.natAbs)).map _ = _
    rw [scanMagnitude_digitsOf, Option.map_some]
    dsimp only
    rw [htoken]
  · rw [decide_eq_false hneg] at htoken
    have hscan := scanMagnitude_digitsOf false i.natAbs
    obtain ⟨c, more, hcons, hdigit⟩ := scanMagnitude_head hscan
    rw [if_neg hneg, hcons, next?_of_isDigit hdigit, ← hcons, hscan, Option.map_some]
    dsimp only
    rw [htoken]

end EventWire.Json

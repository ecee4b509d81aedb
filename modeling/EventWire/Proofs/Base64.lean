import EventWire.Base64
import EventWire.Text.Blank

/-!
# Base64 is canonical

`decode?_encode` says that every list of bytes comes back. This file proves the
other half: a text that decodes at all is the text that its bytes are written as
(`encode_of_decode?`), so no two texts stand for the same bytes.
-/

namespace EventWire.Base64

/-- The alphabet is read one character at a time, and each character is the one
that its six bits are written as. -/
theorem symbol_of_symbolValue? {c : Char} {n : Nat} (h : symbolValue? c = some n) :
    n < 64 ∧ symbol n = c := by
  unfold symbolValue? at h
  split at h
  · next hc =>
    obtain ⟨hlo, hhi⟩ : 65 ≤ c.toNat ∧ c.toNat ≤ 90 := hc
    obtain rfl : c.toNat - 65 = n := Option.some.inj h
    refine ⟨by omega, ?_⟩
    rw [symbol, if_pos (by omega), show 'A'.toNat + (c.toNat - 65) = c.toNat by
      show 65 + (c.toNat - 65) = c.toNat; omega, Char.ofNat_toNat]
  · split at h
    · next hc =>
      obtain ⟨hlo, hhi⟩ : 97 ≤ c.toNat ∧ c.toNat ≤ 122 := hc
      obtain rfl : c.toNat - 97 + 26 = n := Option.some.inj h
      refine ⟨by omega, ?_⟩
      rw [symbol, if_neg (by omega), if_pos (by omega),
        show 'a'.toNat + (c.toNat - 97 + 26 - 26) = c.toNat by
          show 97 + (c.toNat - 97 + 26 - 26) = c.toNat; omega, Char.ofNat_toNat]
    · split at h
      · next hc =>
        obtain ⟨hlo, hhi⟩ : 48 ≤ c.toNat ∧ c.toNat ≤ 57 := hc
        obtain rfl : c.toNat - 48 + 52 = n := Option.some.inj h
        refine ⟨by omega, ?_⟩
        rw [symbol, if_neg (by omega), if_neg (by omega), if_pos (by omega),
          show '0'.toNat + (c.toNat - 48 + 52 - 52) = c.toNat by
            show 48 + (c.toNat - 48 + 52 - 52) = c.toNat; omega, Char.ofNat_toNat]
      · split at h
        · next hc =>
          obtain rfl : 62 = n := Option.some.inj h
          exact ⟨by decide, hc ▸ rfl⟩
        · split at h
          · next hc =>
            obtain rfl : 63 = n := Option.some.inj h
            exact ⟨by decide, hc ▸ rfl⟩
          · exact absurd h (by simp)

/-- The bytes of a short group are written as that group. -/
theorem encodeChars_shortGroup {w x : Char} {bs : Bytes} (h : shortGroup? w x = some bs) :
    encodeChars bs = [w, x, '=', '='] := by
  unfold shortGroup? at h
  split at h
  · next m n hw hx =>
    obtain ⟨hm, rfl⟩ := symbol_of_symbolValue? hw
    obtain ⟨hn, rfl⟩ := symbol_of_symbolValue? hx
    split at h
    · next hbits =>
      obtain rfl := Option.some.inj h
      have hb : (m * 4 + n / 16).toUInt8.toNat = m * 4 + n / 16 := by
        rw [Nat.toUInt8_eq, UInt8.toNat_ofNat']; omega
      -- Of the second symbol two bits are in the byte, and `hbits` has the others zero.
      rw [encodeChars, hb, show (m * 4 + n / 16) / 4 = m by omega,
        show (m * 4 + n / 16) % 4 * 16 = n by omega]
    · exact absurd h (by simp)
  · exact absurd h (by simp)

/-- The bytes of a middle group are written as that group. -/
theorem encodeChars_middleGroup {w x y : Char} {bs : Bytes} (h : middleGroup? w x y = some bs) :
    encodeChars bs = [w, x, y, '='] := by
  unfold middleGroup? at h
  split at h
  · next m n o hw hx hy =>
    obtain ⟨hm, rfl⟩ := symbol_of_symbolValue? hw
    obtain ⟨hn, rfl⟩ := symbol_of_symbolValue? hx
    obtain ⟨ho, rfl⟩ := symbol_of_symbolValue? hy
    split at h
    · next hbits =>
      obtain rfl := Option.some.inj h
      have hb : (m * 4 + n / 16).toUInt8.toNat = m * 4 + n / 16 := by
        rw [Nat.toUInt8_eq, UInt8.toNat_ofNat']; omega
      have hc : (n % 16 * 16 + o / 4).toUInt8.toNat = n % 16 * 16 + o / 4 := by
        rw [Nat.toUInt8_eq, UInt8.toNat_ofNat']; omega
      rw [encodeChars, hb, hc, show (m * 4 + n / 16) / 4 = m by omega,
        show (m * 4 + n / 16) % 4 * 16 + (n % 16 * 16 + o / 4) / 16 = n by omega,
        show (n % 16 * 16 + o / 4) % 16 * 4 = o by omega]
    · exact absurd h (by simp)
  · exact absurd h (by simp)

/-- The bytes of a full group, and any bytes after them, are written as that group
and what the others are written as. -/
theorem encodeChars_fullGroup {w x y z : Char} {group : Bytes}
    (h : fullGroup? w x y z = some group) (bs : Bytes) :
    encodeChars (group ++ bs) = w :: x :: y :: z :: encodeChars bs := by
  unfold fullGroup? at h
  split at h
  · next m n o p hw hx hy hz =>
    obtain ⟨hm, rfl⟩ := symbol_of_symbolValue? hw
    obtain ⟨hn, rfl⟩ := symbol_of_symbolValue? hx
    obtain ⟨ho, rfl⟩ := symbol_of_symbolValue? hy
    obtain ⟨hp, rfl⟩ := symbol_of_symbolValue? hz
    obtain rfl := Option.some.inj h
    have hb : (m * 4 + n / 16).toUInt8.toNat = m * 4 + n / 16 := by
      rw [Nat.toUInt8_eq, UInt8.toNat_ofNat']; omega
    have hc : (n % 16 * 16 + o / 4).toUInt8.toNat = n % 16 * 16 + o / 4 := by
      rw [Nat.toUInt8_eq, UInt8.toNat_ofNat']; omega
    have hd : (o % 4 * 64 + p).toUInt8.toNat = o % 4 * 64 + p := by
      rw [Nat.toUInt8_eq, UInt8.toNat_ofNat']; omega
    rw [List.cons_append, List.cons_append, List.cons_append, List.nil_append, encodeChars,
      hb, hc, hd, show (m * 4 + n / 16) / 4 = m by omega,
      show (m * 4 + n / 16) % 4 * 16 + (n % 16 * 16 + o / 4) / 16 = n by omega,
      show (n % 16 * 16 + o / 4) % 16 * 4 + (o % 4 * 64 + p) / 64 = o by omega,
      show (o % 4 * 64 + p) % 64 = p by omega]
  · exact absurd h (by simp)

theorem encodeChars_of_decodeChars? {cs : List Char} {bs : Bytes}
    (h : decodeChars? cs = some bs) : encodeChars bs = cs := by
  induction cs using decodeChars?.induct generalizing bs with
  | case1 => obtain rfl := Option.some.inj h; rfl
  | case2 w x => exact encodeChars_shortGroup h
  | case3 w x y hne => rw [decodeChars?] at h; exact encodeChars_middleGroup h; exact hne
  | case4 w x y z rest hshort hmiddle group later hlater hgroup ih =>
    rw [decodeChars?, hgroup, hlater] at h
    · obtain rfl := Option.some.inj h
      rw [encodeChars_fullGroup hgroup, ih hlater]
    · exact hshort
    · exact hmiddle
  | case5 w x y z rest hshort hmiddle hnone =>
    -- The group or what follows it does not decode, so neither does the whole.
    rw [decodeChars?] at h
    · split at h
      · next g l hg hl => exact absurd hl (hnone g l hg)
      · exact absurd h (by simp)
    · exact hshort
    · exact hmiddle
  | case6 cs h1 h2 h3 h4 => rw [decodeChars?] at h <;> simp_all

/-- **Base64 is canonical.** A text that decodes is the one its bytes are written
as. -/
theorem encode_of_decode? {s : String} {bs : Bytes} (h : decode? s = some bs) :
    encode bs = s := by
  rw [encode, encodeChars_of_decodeChars? h, String.ofList_toList]

theorem not_isBlank_symbol : ∀ n < 64, Text.isBlank (symbol n) = false := by
  decide

/-- The text of bytes begins with a character of the alphabet, if it has any. -/
theorem not_blankOnly_encodeChars {bs : Bytes} (h : bs ≠ []) :
    Text.blankOnly (encodeChars bs) = false := by
  obtain ⟨a, rest, rfl⟩ := List.exists_cons_of_ne_nil h
  have ha := a.toNat_lt
  have hfirst := not_isBlank_symbol (a.toNat / 4) (by omega)
  rw [Text.blankOnly]
  match rest with
  | [] => rw [encodeChars, List.all_cons, hfirst, Bool.false_and]
  | [b] => rw [encodeChars, List.all_cons, hfirst, Bool.false_and]
  | b :: c :: more => rw [encodeChars, List.all_cons, hfirst, Bool.false_and]

/-- No text of blanks alone decodes, apart from the empty one. -/
theorem eq_empty_of_blankOnly {s : String} {bs : Bytes} (h : decode? s = some bs)
    (hblank : Text.blankOnly s.toList = true) : s = "" := by
  have hencode := encode_of_decode? h
  cases bs with
  | nil => exact hencode.symm
  | cons b rest =>
    rw [← hencode, encode, String.toList_ofList,
      not_blankOnly_encodeChars (List.cons_ne_nil b rest)] at hblank
    cases hblank

/-- What a payload gives as its bytes is what its text decodes to. -/
theorem content?_eq_decode? (p : Base64) : p.content? = decode? p.text := by
  unfold content? bytes?
  split
  · next bs hknown => exact (p.sound bs hknown).symm
  · split
    · next bs h => exact h.symm
    · next h => exact h.symm

/-- Asking for the bytes leaves the text alone. -/
theorem text_bytes? (p : Base64) : p.bytes?.2.text = p.text := by
  unfold bytes?
  split
  · rfl
  · split
    · rfl
    · rfl

/-- Once they were asked for, the bytes are known that the text decodes to, if it decodes. -/
theorem known_bytes? (p : Base64) : p.bytes?.2.known = decode? p.text := by
  unfold bytes?
  split
  · next bs hknown => exact hknown.trans (p.sound bs hknown).symm
  · next hknown =>
    split
    · next bs h => exact h.symm
    · next h => exact hknown.trans h.symm

/-- **Texts that decode are equal exactly if their bytes are.** -/
theorem same_iff {p q : Base64} {bs cs : Bytes} (hp : decode? p.text = some bs)
    (hq : decode? q.text = some cs) : p.same q = true ↔ bs = cs := by
  rw [same, decide_eq_true_iff]
  constructor
  · intro h
    rw [h, hq] at hp
    exact (Option.some.inj hp).symm
  · intro h
    rw [← encode_of_decode? hp, ← encode_of_decode? hq, h]

end EventWire.Base64

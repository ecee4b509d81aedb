import EventWire.Text.Utf8

/-!
# UTF-8 reads back what it writes

`next?_encodeChar`: the reader takes exactly the bytes of one character, whatever
follows them. By induction over the text, `decode_encode`. Bytes below 0x80 are one
character each (`decode_ascii`).

The reader takes no other bytes for a character (`eq_encodeChar_append`), so what it reads is
written as it was (`encode_of_decode`). Where it stops, there is a text up to that place
(`exists_of_decode_eq_error`), and none in front of the same bytes is longer
(`length_encode_le`).

No character begins with a byte that another one goes on with (`exists_lead`). So a text may be
searched for another by their bytes: where these are found, a character begins
(`encode_prefix_drop_iff`, `isValid_length_encode`).
-/

namespace EventWire.Text.Utf8

theorem toNat_toUInt8 {n : Nat} (h : n < 256) : n.toUInt8.toNat = n := by
  rw [Nat.toUInt8_eq, UInt8.toNat_ofNat']
  omega

theorem toUInt8_of_toNat {b : UInt8} {n : Nat} (h : b.toNat = n) : n.toUInt8 = b := by
  rw [← h]
  exact UInt8.ofNat_toNat

theorem toNat_lt (c : Char) : c.toNat < 0x110000 := by
  rcases c.valid with h | h
  · exact Nat.lt_trans h (by decide)
  · exact h.2

theorem toNat_trailByte (n : Nat) : (trailByte n).toNat = 0x80 + n % 64 :=
  toNat_toUInt8 (by omega)

theorem trailBits?_trailByte (n : Nat) : trailBits? (trailByte n) = some (n % 64) := by
  unfold trailBits?
  rw [toNat_trailByte, if_pos (by omega), Nat.add_sub_cancel_left]

/-- A character's own number gives it back, if its shortest form may start there. -/
theorem charFrom?_toNat {c : Char} {least : Nat} (h : least ≤ c.toNat) :
    charFrom? least c.toNat = some c := by
  unfold charFrom?
  rw [dif_pos ⟨c.valid, h⟩]
  rfl

/-! ## One character of each width -/

section Widths

variable {c : Char} {lead : UInt8} (rest : Bytes)

theorem next?_one (hlead : lead.toNat = c.toNat) (h : c.toNat < 0x80) :
    next? (lead :: rest) = some (c, rest) := by
  unfold next?
  simp only [hlead]
  rw [if_pos h, charFrom?_toNat (Nat.zero_le _)]
  rfl

theorem next?_two (hlead : lead.toNat = 0xC0 + c.toNat / 64) (hlow : 0x80 ≤ c.toNat)
    (hhigh : c.toNat < 0x800) : next? (lead :: trailByte c.toNat :: rest) = some (c, rest) := by
  have hsum : (lead.toNat - 0xC0) * 64 + c.toNat % 64 = c.toNat := by omega
  unfold next?
  dsimp only
  rw [if_neg (by omega), if_neg (by omega), if_pos (by omega), trailBits?_trailByte,
    Option.bind_eq_bind, Option.bind_some, hsum, charFrom?_toNat hlow, Option.map_some]

theorem next?_three (hlead : lead.toNat = 0xE0 + c.toNat / 4096) (hlow : 0x800 ≤ c.toNat)
    (hhigh : c.toNat < 0x10000) :
    next? (lead :: trailByte (c.toNat / 64) :: trailByte c.toNat :: rest) = some (c, rest) := by
  have hsum : (lead.toNat - 0xE0) * 4096 + c.toNat / 64 % 64 * 64 + c.toNat % 64 = c.toNat := by
    omega
  unfold next?
  dsimp only
  rw [if_neg (by omega), if_neg (by omega), if_neg (by omega), if_pos (by omega),
    trailBits?_trailByte, trailBits?_trailByte, Option.bind_eq_bind, Option.bind_some,
    Option.bind_some, hsum, charFrom?_toNat hlow, Option.map_some]

theorem next?_four (hlead : lead.toNat = 0xF0 + c.toNat / 262144) (hlow : 0x10000 ≤ c.toNat) :
    next? (lead :: trailByte (c.toNat / 4096) :: trailByte (c.toNat / 64) :: trailByte c.toNat
      :: rest) = some (c, rest) := by
  have hsum : (lead.toNat - 0xF0) * 262144 + c.toNat / 4096 % 64 * 4096 + c.toNat / 64 % 64 * 64
      + c.toNat % 64 = c.toNat := by
    omega
  unfold next?
  dsimp only
  rw [if_neg (by omega), if_neg (by omega), if_neg (by omega), if_neg (by omega),
    trailBits?_trailByte, trailBits?_trailByte, trailBits?_trailByte, Option.bind_eq_bind,
    Option.bind_some, Option.bind_some, Option.bind_some, hsum, charFrom?_toNat hlow,
    Option.map_some]

end Widths

/-- The reader takes the bytes of one character and leaves what follows. -/
theorem next?_encodeChar (c : Char) (rest : Bytes) :
    next? (encodeChar c ++ rest) = some (c, rest) := by
  have hmax := toNat_lt c
  -- The writer picks the width where the reader's least numbers begin, so no form is
  -- longer than it may be.
  unfold encodeChar
  simp only []
  split
  · next h1 => exact next?_one rest (toNat_toUInt8 (by omega)) h1
  · next h1 =>
    split
    · next h2 => exact next?_two rest (toNat_toUInt8 (by omega)) (by omega) h2
    · next h2 =>
      split
      · next h3 => exact next?_three rest (toNat_toUInt8 (by omega)) (by omega) h3
      · next h3 => exact next?_four rest (toNat_toUInt8 (by omega)) (by omega)

theorem encodeChar_ne_nil (c : Char) : encodeChar c ≠ [] := by
  intro h
  have hread := next?_encodeChar c []
  rw [h] at hread
  exact absurd hread (by simp [next?])

theorem encode_cons (c : Char) (cs : List Char) : encode (c :: cs) = encodeChar c ++ encode cs := by
  rw [encode, encode, List.flatMap_cons]

/-- **What UTF-8 writes, it reads back.** -/
theorem decode_encode (cs : List Char) : decode (encode cs) = .ok cs := by
  induction cs with
  | nil => rw [encode, List.flatMap_nil, decode]
  | cons c cs ih =>
    have hread : next? (encode (c :: cs)) = some (c, encode cs) := by
      rw [encode_cons]
      exact next?_encodeChar c _
    have hne : encode (c :: cs) ≠ [] := by
      rw [encode_cons]
      exact fun h => encodeChar_ne_nil c (List.append_eq_nil_iff.mp h).1
    -- `decode` looks for a first byte before it reads a character.
    obtain ⟨b, tail, hcons⟩ := List.exists_cons_of_ne_nil hne
    rw [hcons] at hread ⊢
    rw [decode]
    split
    · next hnone => exact absurd (hread.symm.trans hnone) (by simp)
    · next d rest hsome =>
      obtain ⟨rfl, rfl⟩ : c = d ∧ encode cs = rest := by
        simpa using hread.symm.trans hsome
      rw [ih]

/-! ## What is read as one character -/

/-- A character that is made from a number has that number, and it is not too small. -/
theorem toNat_of_charFrom? {least n : Nat} {c : Char} (h : charFrom? least n = some c) :
    c.toNat = n ∧ least ≤ n := by
  by_cases hn : n.isValidChar ∧ least ≤ n
  · rw [charFrom?, dif_pos hn] at h
    obtain rfl := Option.some.inj h
    exact ⟨rfl, hn.2⟩
  · rw [charFrom?, dif_neg hn] at h
    cases h

theorem toNat_of_trailBits? {b : UInt8} {x : Nat} (h : trailBits? b = some x) :
    b.toNat = 0x80 + x ∧ x < 64 := by
  unfold trailBits? at h
  split at h
  · next hb =>
    obtain rfl := Option.some.inj h
    omega
  · cases h

/-- A byte that carries the last six bits of a number is its trailing byte. -/
theorem trailByte_of_trailBits? {b : UInt8} {n : Nat} (h : trailBits? b = some (n % 64)) :
    trailByte n = b := by
  rw [← UInt8.toNat_inj, toNat_trailByte, (toNat_of_trailBits? h).1]

section Forms

variable {lead b₁ b₂ b₃ : UInt8} {c : Char} {x y z : Nat}

theorem encodeChar_of_one (hlead : lead.toNat < 0x80) (hc : charFrom? 0 lead.toNat = some c) :
    encodeChar c = [lead] := by
  have hnumber := (toNat_of_charFrom? hc).1
  unfold encodeChar
  dsimp only
  rw [if_pos (by omega), toUInt8_of_toNat hnumber.symm]

theorem encodeChar_of_two (hlow : 0xC0 ≤ lead.toNat) (hhigh : lead.toNat < 0xE0)
    (hx : trailBits? b₁ = some x) (hc : charFrom? 0x80 ((lead.toNat - 0xC0) * 64 + x) = some c) :
    encodeChar c = [lead, b₁] := by
  obtain ⟨hnumber, hleast⟩ := toNat_of_charFrom? hc
  have hbits := (toNat_of_trailBits? hx).2
  obtain rfl : x = c.toNat % 64 := by omega
  unfold encodeChar
  dsimp only
  rw [if_neg (by omega), if_pos (by omega), trailByte_of_trailBits? hx,
    toUInt8_of_toNat (b := lead) (by omega)]

theorem encodeChar_of_three (hlow : 0xE0 ≤ lead.toNat) (hhigh : lead.toNat < 0xF0)
    (hx : trailBits? b₁ = some x) (hy : trailBits? b₂ = some y)
    (hc : charFrom? 0x800 ((lead.toNat - 0xE0) * 4096 + x * 64 + y) = some c) :
    encodeChar c = [lead, b₁, b₂] := by
  obtain ⟨hnumber, hleast⟩ := toNat_of_charFrom? hc
  have hbits := (toNat_of_trailBits? hx).2
  have hbits' := (toNat_of_trailBits? hy).2
  obtain rfl : x = c.toNat / 64 % 64 := by omega
  obtain rfl : y = c.toNat % 64 := by omega
  unfold encodeChar
  dsimp only
  rw [if_neg (by omega), if_neg (by omega), if_pos (by omega), trailByte_of_trailBits? hx,
    trailByte_of_trailBits? hy, toUInt8_of_toNat (b := lead) (by omega)]

theorem encodeChar_of_four (hlow : 0xF0 ≤ lead.toNat)
    (hx : trailBits? b₁ = some x) (hy : trailBits? b₂ = some y) (hz : trailBits? b₃ = some z)
    (hc : charFrom? 0x10000 ((lead.toNat - 0xF0) * 262144 + x * 4096 + y * 64 + z) = some c) :
    encodeChar c = [lead, b₁, b₂, b₃] := by
  obtain ⟨hnumber, hleast⟩ := toNat_of_charFrom? hc
  have hbits := (toNat_of_trailBits? hx).2
  have hbits' := (toNat_of_trailBits? hy).2
  have hbits'' := (toNat_of_trailBits? hz).2
  obtain rfl : x = c.toNat / 4096 % 64 := by omega
  obtain rfl : y = c.toNat / 64 % 64 := by omega
  obtain rfl : z = c.toNat % 64 := by omega
  unfold encodeChar
  dsimp only
  rw [if_neg (by omega), if_neg (by omega), if_neg (by omega), trailByte_of_trailBits? hx,
    trailByte_of_trailBits? hy, trailByte_of_trailBits? hz,
    toUInt8_of_toNat (b := lead) (by omega)]

end Forms

/-- **What is read as a character are the bytes of that character**: no other form is read. -/
theorem eq_encodeChar_append {bs rest : Bytes} {c : Char} (h : next? bs = some (c, rest)) :
    bs = encodeChar c ++ rest := by
  cases bs with
  | nil => cases h
  | cons lead after =>
    unfold next? at h
    dsimp only at h
    split at h
    · next hone =>
      obtain ⟨d, hd, heq⟩ := Option.map_eq_some_iff.mp h
      cases heq
      rw [encodeChar_of_one hone hd, List.singleton_append]
    split at h
    · cases h
    next hlow =>
    split at h
    · next hhigh =>
      split at h
      · next b₁ after =>
        obtain ⟨x, hx, h⟩ := Option.bind_eq_some_iff.mp h
        obtain ⟨d, hd, heq⟩ := Option.map_eq_some_iff.mp h
        cases heq
        rw [encodeChar_of_two (by omega) hhigh hx hd, List.cons_append, List.singleton_append]
      · cases h
    next hlow =>
    split at h
    · next hhigh =>
      split at h
      · next b₁ b₂ after =>
        obtain ⟨x, hx, h⟩ := Option.bind_eq_some_iff.mp h
        obtain ⟨y, hy, h⟩ := Option.bind_eq_some_iff.mp h
        obtain ⟨d, hd, heq⟩ := Option.map_eq_some_iff.mp h
        cases heq
        rw [encodeChar_of_three (by omega) hhigh hx hy hd]
        rfl
      · cases h
    next hlow =>
    split at h
    · next b₁ b₂ b₃ after =>
      obtain ⟨x, hx, h⟩ := Option.bind_eq_some_iff.mp h
      obtain ⟨y, hy, h⟩ := Option.bind_eq_some_iff.mp h
      obtain ⟨z, hz, h⟩ := Option.bind_eq_some_iff.mp h
      obtain ⟨d, hd, heq⟩ := Option.map_eq_some_iff.mp h
      cases heq
      rw [encodeChar_of_four (by omega) hx hy hz hd]
      rfl
    · cases h

/-- **What is decoded is written so.** -/
theorem encode_of_decode {bs : Bytes} {cs : List Char} (h : decode bs = .ok cs) :
    encode cs = bs := by
  fun_induction decode bs generalizing cs with
  | case1 =>
    cases h
    rfl
  | case2 => cases h
  | case3 b tail c rest hnext cs' hrest ih =>
    cases h
    rw [encode_cons, ih hrest, ← eq_encodeChar_append hnext]
  | case4 => cases h

/-- A text, and what is behind it, where no character can be read. -/
theorem exists_of_decode_eq_error {bs : Bytes} {n : Nat} (h : decode bs = .error n) :
    ∃ cs more, bs = encode cs ++ more ∧ (encode cs).length = n ∧ next? more = none := by
  fun_induction decode bs generalizing n with
  | case1 => cases h
  | case2 b tail hnext =>
    cases h
    exact ⟨[], b :: tail, rfl, rfl, hnext⟩
  | case3 => cases h
  | case4 b tail c rest hnext m hrest ih =>
    cases h
    obtain ⟨cs, more, hsplit, hlength, hstop⟩ := ih hrest
    have hbytes := eq_encodeChar_append hnext
    have hall := congrArg List.length hbytes
    rw [List.length_append, List.length_cons] at hall
    refine ⟨c :: cs, more, ?_, ?_, hstop⟩
    · rw [hbytes, encode_cons, List.append_assoc, ← hsplit]
    · rw [encode_cons, List.length_append, hlength]
      omega

/-- A text in front of bytes is no longer than one after which no character can be read. -/
theorem length_encode_le {cs : List Char} {more : Bytes} (hstop : next? more = none) :
    ∀ {ds : List Char} {tail : Bytes}, encode ds ++ tail = encode cs ++ more →
      (encode ds).length ≤ (encode cs).length := by
  induction cs with
  | nil =>
    intro ds tail h
    cases ds with
    | nil => exact Nat.le_refl _
    | cons d ds =>
      rw [encode_cons, List.append_assoc] at h
      have hread := next?_encodeChar d (encode ds ++ tail)
      rw [h] at hread
      exact absurd (hstop.symm.trans hread) (by simp)
  | cons c cs ih =>
    intro ds tail h
    cases ds with
    | nil => exact Nat.zero_le _
    | cons d ds =>
      rw [encode_cons, encode_cons, List.append_assoc, List.append_assoc] at h
      have hread := next?_encodeChar d (encode ds ++ tail)
      rw [h, next?_encodeChar, Option.some.injEq, Prod.mk.injEq] at hread
      obtain ⟨rfl, hrest⟩ := hread
      have hlength := ih hrest.symm
      rw [encode_cons, encode_cons, List.length_append, List.length_append]
      omega

/-! ## Places between characters -/

theorem encode_nil : encode [] = [] := rfl

theorem encode_append (as bs : List Char) : encode (as ++ bs) = encode as ++ encode bs :=
  List.flatMap_append

/-- The first byte of a character is no trailing byte, and all others are. -/
theorem exists_lead (c : Char) : ∃ lead trail, encodeChar c = lead :: trail ∧
    trailBits? lead = none ∧ ∀ b ∈ trail, (trailBits? b).isSome = true := by
  have hmax := toNat_lt c
  have hlead : ∀ {n : Nat}, n < 256 → n < 0x80 ∨ 0xC0 ≤ n → trailBits? n.toUInt8 = none :=
    fun hsmall hrange => if_neg (by rw [toNat_toUInt8 hsmall]; omega)
  have htrail : ∀ n, (trailBits? (trailByte n)).isSome = true := fun n => by
    rw [trailBits?_trailByte]
    rfl
  unfold encodeChar
  dsimp only
  split
  · exact ⟨_, _, rfl, hlead (by omega) (by omega), by simp⟩
  · split
    · exact ⟨_, _, rfl, hlead (by omega) (by omega), by simp [htrail]⟩
    · split
      · exact ⟨_, _, rfl, hlead (by omega) (by omega), by simp [htrail]⟩
      · exact ⟨_, _, rfl, hlead (by omega) (by omega), by simp [htrail]⟩

/-- Bytes that begin with those of a text are those of a text that begins with it. -/
theorem prefix_of_encode_prefix {mark : List Char} :
    ∀ {cs : List Char}, encode mark <+: encode cs → mark <+: cs := by
  induction mark with
  | nil => exact fun _ => List.nil_prefix
  | cons m mark ih =>
    rintro cs ⟨more, h⟩
    rw [encode_cons, List.append_assoc] at h
    have hread := next?_encodeChar m (encode mark ++ more)
    cases cs with
    | nil =>
      rw [h] at hread
      cases hread
    | cons c cs =>
      rw [h, encode_cons, next?_encodeChar, Option.some.injEq, Prod.mk.injEq] at hread
      obtain ⟨rfl, hrest⟩ := hread
      exact List.prefix_cons_inj c |>.mpr (ih ⟨more, hrest.symm⟩)

/-- **A search byte by byte finds a text where it stands, and nowhere else**: it never begins
inside of a character. -/
theorem encode_prefix_drop_iff {mark : List Char} (hmark : mark ≠ []) {cs : List Char} {i : Nat} :
    encode mark <+: (encode cs).drop i ↔
      ∃ before after, cs = before ++ mark ++ after ∧ i = (encode before).length := by
  constructor
  · intro h
    induction cs generalizing i with
    | nil =>
      obtain ⟨m, rest, rfl⟩ := List.exists_cons_of_ne_nil hmark
      rw [encode_nil, List.drop_nil, List.prefix_nil, encode_cons] at h
      exact absurd (List.append_eq_nil_iff.mp h).1 (encodeChar_ne_nil m)
    | cons c cs ih =>
      by_cases hskip : (encodeChar c).length ≤ i
      · rw [encode_cons, List.drop_append, List.drop_eq_nil_of_le hskip, List.nil_append] at h
        obtain ⟨before, after, rfl, hi⟩ := ih h
        refine ⟨c :: before, after, rfl, ?_⟩
        rw [encode_cons, List.length_append, ← hi]
        omega
      · cases i with
        | zero =>
          obtain ⟨after, hafter⟩ := prefix_of_encode_prefix h
          exact ⟨[], after, hafter.symm, rfl⟩
        | succ j =>
          -- The bytes would go on with a trailing byte, and the text begins with another.
          obtain ⟨m, rest, rfl⟩ := List.exists_cons_of_ne_nil hmark
          obtain ⟨lead, trail, hm, hlead, -⟩ := exists_lead m
          obtain ⟨first, later, hc, -, hlater⟩ := exists_lead c
          obtain ⟨more, hmore⟩ := h
          rw [hc, List.length_cons, Nat.not_le, Nat.succ_lt_succ_iff] at hskip
          rw [encode_cons, encode_cons, hm, hc, List.cons_append, List.cons_append,
            List.cons_append, List.drop_succ_cons,
            List.drop_append_of_le_length (Nat.le_of_lt hskip),
            List.drop_eq_getElem_cons hskip] at hmore
          have hbyte : (trailBits? lead).isSome = true := by
            rw [(List.cons.inj hmore).1]
            exact hlater _ (List.getElem_mem hskip)
          rw [hlead] at hbyte
          cases hbyte
  · rintro ⟨before, after, rfl, rfl⟩
    rw [encode_append, encode_append, List.append_assoc, List.drop_left]
    exact List.prefix_append _ _

theorem length_encodeChar (c : Char) : (encodeChar c).length = c.utf8Size := by
  have hsize : c.utf8Size = if c.toNat ≤ 0x7F then 1 else if c.toNat ≤ 0x7FF then 2
      else if c.toNat ≤ 0xFFFF then 3 else 4 := rfl
  unfold encodeChar
  dsimp only
  split
  · rw [hsize, if_pos (by omega)]
    rfl
  · split
    · rw [hsize, if_neg (by omega), if_pos (by omega)]
      rfl
    · split
      · rw [hsize, if_neg (by omega), if_neg (by omega), if_pos (by omega)]
        rfl
      · rw [hsize, if_neg (by omega), if_neg (by omega), if_neg (by omega)]
        rfl

/-- A text takes as many bytes as Lean's own strings. -/
theorem length_encode (cs : List Char) : (encode cs).length = (String.ofList cs).utf8ByteSize := by
  induction cs with
  | nil => rfl
  | cons c cs ih =>
    rw [encode_cons, List.length_append, length_encodeChar, ih, String.ofList_cons,
      String.utf8ByteSize_append, String.utf8ByteSize_singleton]

/-- Behind the bytes of a beginning of a text, a character begins. -/
theorem isValid_length_encode (before after : List Char) :
    String.Pos.Raw.IsValid (String.ofList (before ++ after)) ⟨(encode before).length⟩ := by
  refine String.Pos.Raw.isValid_iff_exists_append.mpr
    ⟨String.ofList before, String.ofList after, String.ofList_append, ?_⟩
  rw [length_encode]
  rfl

/-! ## Bytes of one character each -/

/-- The character of the number of a byte. -/
def byteChar (b : UInt8) : Char :=
  Char.ofNat b.toNat

theorem toNat_byteChar (b : UInt8) : (byteChar b).toNat = b.toNat := by
  have hvalid : b.toNat.isValidChar := Or.inl (Nat.lt_trans b.toNat_lt (by decide))
  rw [byteChar, Char.ofNat, dif_pos hvalid]
  rfl

theorem byteChar_toUInt8 {c : Char} (h : c.toNat < 256) : byteChar c.toNat.toUInt8 = c := by
  rw [byteChar, toNat_toUInt8 h, Char.ofNat_toNat]

theorem encodeChar_byteChar {b : UInt8} (h : b.toNat < 0x80) : encodeChar (byteChar b) = [b] := by
  unfold encodeChar
  dsimp only
  rw [toNat_byteChar, if_pos h, toUInt8_of_toNat rfl]

/-- Small bytes are the characters of their numbers. -/
theorem decode_ascii {bs : Bytes} (h : ∀ b ∈ bs, b.toNat < 0x80) :
    decode bs = .ok (bs.map byteChar) := by
  have hencode : encode (bs.map byteChar) = bs := by
    induction bs with
    | nil => rfl
    | cons b rest ih =>
      obtain ⟨hb, hrest⟩ := List.forall_mem_cons.mp h
      rw [List.map_cons, encode_cons, encodeChar_byteChar hb, ih hrest, List.singleton_append]
  rw [← decode_encode, hencode]

end EventWire.Text.Utf8

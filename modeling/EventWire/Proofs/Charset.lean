import EventWire.Charset
import EventWire.Proofs.Blank
import EventWire.Proofs.Utf8

/-!
# Texts and bytes in a charset

A charset writes texts as bytes and reads them back, and it reads nothing but what it writes
(`encode_iff_decode`). For UTF-8 this is the law of UTF-8; the narrow charsets turn one
character into one byte and back (`encodeNarrow_iff_decodeNarrow`).

What cannot be converted is to blame itself. Encoding stops at the first character out of
reach (`encode_eq_error`). Decoding stops at a place in the bytes, up to which there is text,
and no longer beginning of them is text (`exists_readableUpTo`). So every charset is exact
(`coding_exact`).

A charset goes by its names in any case: names that agree up to case are names of the
same charset (`ofName_of_sameIgnoringCase`).
-/

namespace EventWire.Charset

open Text.Utf8 (byteChar)

/-- The narrow charsets reach no further than one byte. -/
theorem reach_le_of_ne_utf8 {c : Charset} (h : c ≠ .utf8) : c.reach ≤ 256 := by
  cases c with
  | utf8 => exact absurd rfl h
  | usAscii => decide
  | latin1 => decide

/-! ## The narrow charsets -/

/-- **The first character out of reach is what stops encoding**, and nothing else does. -/
theorem encodeNarrow_eq (c : Charset) (cs : List Char) :
    c.encodeNarrow cs = match cs.find? fun x => c.reach ≤ x.toNat with
      | some x => .error (.unmappable c x)
      | none => .ok (cs.map fun x => x.toNat.toUInt8) := by
  induction cs with
  | nil => rfl
  | cons x rest ih =>
    rw [encodeNarrow]
    by_cases hx : x.toNat < c.reach
    · rw [if_pos hx, List.find?_cons_of_neg (by simpa using hx), ih]
      cases rest.find? fun x => c.reach ≤ x.toNat with
      | none => rfl
      | some y => rfl
    · rw [if_neg hx, List.find?_cons_of_pos (by simpa using hx)]

/-- **The first byte out of reach is what stops decoding**, and nothing else does. -/
theorem decodeNarrow_eq (c : Charset) (bs : Bytes) : ∀ position,
    c.decodeNarrow position bs = match bs.findIdx? fun b => c.reach ≤ b.toNat with
      | some i => .error (.invalidInput c (position + i))
      | none => .ok (bs.map byteChar) := by
  induction bs with
  | nil => exact fun _ => rfl
  | cons b rest ih =>
    intro position
    rw [decodeNarrow, List.findIdx?_cons]
    by_cases hb : b.toNat < c.reach
    · rw [if_pos hb, if_neg (by simpa using hb), ih]
      cases rest.findIdx? fun b => c.reach ≤ b.toNat with
      | none => rfl
      | some i =>
        have hplace : position + 1 + i = position + (i + 1) := by omega
        dsimp only [Option.map_some]
        rw [hplace]
    · rw [if_neg hb, if_pos (by simpa using hb)]
      rfl

theorem encodeNarrow_eq_ok {c : Charset} {cs : List Char} {bs : Bytes} :
    c.encodeNarrow cs = .ok bs ↔
      (∀ x ∈ cs, x.toNat < c.reach) ∧ (cs.map fun x => x.toNat.toUInt8) = bs := by
  have hall : cs.find? (fun x => c.reach ≤ x.toNat) = none ↔ ∀ x ∈ cs, x.toNat < c.reach := by
    simp
  rw [encodeNarrow_eq, ← hall]
  cases cs.find? fun x => c.reach ≤ x.toNat with
  | none => simp
  | some x => simp

theorem decodeNarrow_eq_ok {c : Charset} {bs : Bytes} {cs : List Char} {position : Nat} :
    c.decodeNarrow position bs = .ok cs ↔
      (∀ b ∈ bs, b.toNat < c.reach) ∧ bs.map byteChar = cs := by
  have hall : bs.findIdx? (fun b => c.reach ≤ b.toNat) = none ↔ ∀ b ∈ bs, b.toNat < c.reach := by
    simp
  rw [decodeNarrow_eq, ← hall]
  cases bs.findIdx? fun b => c.reach ≤ b.toNat with
  | none => simp
  | some i => simp

/-- One character becomes one byte, and that byte the character. -/
theorem encodeNarrow_iff_decodeNarrow {c : Charset} (hc : c ≠ .utf8) {cs : List Char} {bs : Bytes} :
    c.encodeNarrow cs = .ok bs ↔ c.decodeNarrow 0 bs = .ok cs := by
  have hreach := reach_le_of_ne_utf8 hc
  rw [encodeNarrow_eq_ok, decodeNarrow_eq_ok]
  constructor
  · rintro ⟨hcs, rfl⟩
    have hbyte (x : Char) (hx : x ∈ cs) : x.toNat < 256 := Nat.lt_of_lt_of_le (hcs x hx) hreach
    refine ⟨List.forall_mem_map.mpr fun x hx => ?_, ?_⟩
    · rw [Text.Utf8.toNat_toUInt8 (hbyte x hx)]
      exact hcs x hx
    · rw [List.map_map]
      exact (List.map_congr_left (g := id) fun x hx =>
        Text.Utf8.byteChar_toUInt8 (hbyte x hx)).trans (List.map_id cs)
  · rintro ⟨hbs, rfl⟩
    refine ⟨List.forall_mem_map.mpr fun b hb => ?_, ?_⟩
    · rw [Text.Utf8.toNat_byteChar]
      exact hbs b hb
    · rw [List.map_map]
      exact (List.map_congr_left (g := id) fun b _ =>
        Text.Utf8.toUInt8_of_toNat (Text.Utf8.toNat_byteChar b).symm).trans (List.map_id bs)

/-! ## All charsets -/

/-- **Encoding and decoding undo one another.** -/
theorem encode_iff_decode {c : Charset} {s : String} {bs : Bytes} :
    c.encode s = .ok bs ↔ c.decode bs = .ok s := by
  have hlist (cs : List Char) : String.ofList cs = s ↔ cs = s.toList :=
    ⟨fun h => by rw [← h, String.toList_ofList], fun h => by rw [h, String.ofList_toList]⟩
  by_cases hc : c = .utf8
  · subst hc
    rw [encode, decode, Except.ok.injEq]
    constructor
    · rintro rfl
      rw [Text.Utf8.decode_encode]
      exact congrArg _ s.ofList_toList
    · intro h
      split at h
      · next cs hcs =>
        rw [← (hlist cs).mp (Except.ok.inj h), Text.Utf8.encode_of_decode hcs]
      · cases h
  · rw [encode.eq_2 c s hc, decode.eq_2 c bs hc, encodeNarrow_iff_decodeNarrow hc]
    cases c.decodeNarrow 0 bs with
    | error e =>
      constructor
      · intro h
        cases h
      · intro h
        cases h
    | ok cs =>
      dsimp only
      rw [Except.ok.injEq, Except.ok.injEq, hlist]

/-- **What a charset writes, it reads back.** -/
theorem decode_of_encode {c : Charset} {s : String} {bs : Bytes} (h : c.encode s = .ok bs) :
    c.decode bs = .ok s :=
  encode_iff_decode.mp h

/-- **Encoding fails at the first character out of reach**, and for no other reason. -/
theorem encode_eq_error {c : Charset} {s : String} {e : CharsetError} :
    c.encode s = .error e ↔
      ∃ x, s.toList.find? (fun x => c.reach ≤ x.toNat) = some x ∧ e = .unmappable c x := by
  by_cases hc : c = .utf8
  · subst hc
    have hnone : s.toList.find? (fun x => Charset.utf8.reach ≤ x.toNat) = none := by
      refine List.find?_eq_none.mpr fun x _ h => ?_
      exact Nat.not_le.mpr (Text.Utf8.toNat_lt x) (of_decide_eq_true h)
    rw [hnone, encode]
    constructor
    · intro h
      cases h
    · rintro ⟨x, hx, -⟩
      cases hx
  · rw [encode.eq_2 c s hc, encodeNarrow_eq]
    cases s.toList.find? fun x => c.reach ≤ x.toNat with
    | none => simp
    | some x => simp [eq_comm]

theorem decode_eq_ok_of_ne_utf8 {c : Charset} {bs : Bytes} {s : String} (hc : c ≠ .utf8)
    (h : c.decode bs = .ok s) :
    (∀ b ∈ bs, b.toNat < c.reach) ∧ s = String.ofList (bs.map byteChar) := by
  rw [decode.eq_2 c bs hc] at h
  split at h
  · next cs hcs =>
    cases h
    obtain ⟨hbytes, rfl⟩ := decodeNarrow_eq_ok.mp hcs
    exact ⟨hbytes, rfl⟩
  · cases h

/-- **What a charset decodes, UTF-8 decodes to the same text**, unless there are bytes
beyond ASCII in Latin-1. -/
theorem decode_utf8_of_decode {c : Charset} {bs : Bytes} {s : String} (h : c.decode bs = .ok s)
    (hascii : c ≠ .latin1 ∨ ∀ b ∈ bs, b.toNat < 0x80) : Charset.utf8.decode bs = .ok s := by
  by_cases hc : c = .utf8
  · rw [← hc]
    exact h
  · obtain ⟨hreach, rfl⟩ := decode_eq_ok_of_ne_utf8 hc h
    have hbytes : ∀ b ∈ bs, b.toNat < 0x80 := by
      cases c with
      | utf8 => exact absurd rfl hc
      | usAscii => exact hreach
      | latin1 => exact hascii.resolve_left fun hne => hne rfl
    rw [decode, Text.Utf8.decode_ascii hbytes]

/-! ## Where decoding stops -/

/-- The number of bytes up to which there is text: those are decoded, and no more from the
beginning are. -/
structure ReadableUpTo (c : Charset) (bs : Bytes) (n : Nat) : Prop where
  readable : ∃ front s, front <+: bs ∧ front.length = n ∧ c.decode front = .ok s
  longest : ∀ front s, front <+: bs → c.decode front = .ok s → front.length ≤ n

theorem ReadableUpTo.unique {c : Charset} {bs : Bytes} {n m : Nat} (hn : c.ReadableUpTo bs n)
    (hm : c.ReadableUpTo bs m) : n = m := by
  obtain ⟨front, s, hfront, rfl, hs⟩ := hn.readable
  obtain ⟨front', s', hfront', rfl, hs'⟩ := hm.readable
  exact Nat.le_antisymm (hm.longest front s hfront hs) (hn.longest front' s' hfront' hs')

theorem readableUpTo_utf8 {bs : Bytes} {n : Nat} (h : Text.Utf8.decode bs = .error n) :
    Charset.utf8.ReadableUpTo bs n := by
  obtain ⟨cs, more, rfl, rfl, hstop⟩ := Text.Utf8.exists_of_decode_eq_error h
  refine ⟨⟨_, String.ofList cs, List.prefix_append _ more, rfl, ?_⟩, ?_⟩
  · rw [decode, Text.Utf8.decode_encode]
  · rintro front s ⟨tail, htail⟩ hs
    obtain rfl := Except.ok.inj (encode_iff_decode.mpr hs)
    exact Text.Utf8.length_encode_le hstop htail

theorem readableUpTo_of_findIdx? {c : Charset} (hc : c ≠ .utf8) {bs : Bytes} {i : Nat}
    (h : bs.findIdx? (fun b => c.reach ≤ b.toNat) = some i) : c.ReadableUpTo bs i := by
  obtain ⟨hi, hbad, hgood⟩ := List.findIdx?_eq_some_iff_getElem.mp h
  have hfront : ∀ b ∈ bs.take i, b.toNat < c.reach := by
    intro b hb
    obtain ⟨j, hj, rfl⟩ := List.mem_take_iff_getElem.mp hb
    simpa using hgood j (by omega)
  refine ⟨⟨bs.take i, String.ofList ((bs.take i).map byteChar), List.take_prefix i bs,
    List.length_take_of_le (Nat.le_of_lt hi), ?_⟩, ?_⟩
  · rw [decode.eq_2 c _ hc, decodeNarrow_eq_ok.mpr ⟨hfront, rfl⟩]
  · intro front s hfront hs
    refine Nat.not_lt.mp fun hlt => ?_
    have hreach := (decode_eq_ok_of_ne_utf8 hc hs).1 front[i] (List.getElem_mem hlt)
    rw [hfront.getElem hlt] at hreach
    exact absurd hreach (Nat.not_lt.mpr (of_decide_eq_true hbad))

/-- **Decoding fails behind the last place up to which there is text**, and for no other
reason. -/
theorem exists_readableUpTo {c : Charset} {bs : Bytes} {e : CharsetError}
    (h : c.decode bs = .error e) : ∃ n, c.ReadableUpTo bs n ∧ e = .invalidInput c n := by
  by_cases hc : c = .utf8
  · subst hc
    rw [decode] at h
    split at h
    · cases h
    · next n hn =>
      cases h
      exact ⟨n, readableUpTo_utf8 hn, rfl⟩
  · rw [decode.eq_2 c bs hc, decodeNarrow_eq] at h
    cases hfind : bs.findIdx? fun b => c.reach ≤ b.toNat with
    | none =>
      rw [hfind] at h
      cases h
    | some i =>
      rw [hfind] at h
      cases h
      exact ⟨i, readableUpTo_of_findIdx? hc hfind, by rw [Nat.zero_add]⟩

/-- Bytes that are not decoded are to blame themselves. -/
theorem decode_eq_error {c : Charset} {bs : Bytes} {e : CharsetError}
    (h : c.decode bs = .error e) : ∃ n, e = .invalidInput c n := by
  obtain ⟨n, -, he⟩ := exists_readableUpTo h
  exact ⟨n, he⟩

/-- A charset whose texts and bytes stand for one another, one for one, and which tells what is
wrong with those that do not: the first character out of reach, or the place where the longest
readable beginning ends. -/
structure Exact (c : Charset) : Prop where
  inverse : ∀ s bs, c.encode s = .ok bs ↔ c.decode bs = .ok s
  unmappable : ∀ s e, c.encode s = .error e ↔
    ∃ x, s.toList.find? (fun x => c.reach ≤ x.toNat) = some x ∧ e = .unmappable c x
  undecodable : ∀ bs e, c.decode bs = .error e ↔
    (∀ s, c.encode s ≠ .ok bs) ∧ ∃ n, c.ReadableUpTo bs n ∧ e = .invalidInput c n

/-- **Every charset is exact.** -/
theorem coding_exact (c : Charset) : c.Exact where
  inverse _ _ := encode_iff_decode
  unmappable _ _ := encode_eq_error
  undecodable bs e := by
    constructor
    · intro h
      refine ⟨fun s hs => ?_, exists_readableUpTo h⟩
      rw [decode_of_encode hs] at h
      cases h
    · rintro ⟨hnone, n, hn, rfl⟩
      cases hdecode : c.decode bs with
      | ok s => exact absurd (encode_iff_decode.mpr hdecode) (hnone s)
      | error e =>
        obtain ⟨m, hm, rfl⟩ := exists_readableUpTo hdecode
        rw [hn.unique hm]

-- ASCII ends at U+007F and ISO-8859-1 at U+00FF, in both directions.
example : usAscii.encode "\u007f" = .ok [0x7F] ∧ usAscii.decode [0x7F] = .ok "\u007f" := by
  exact ⟨rfl, rfl⟩

example : usAscii.encode "a\u0080" = .error (.unmappable .usAscii '\u0080') ∧
    usAscii.decode [0x61, 0x80] = .error (.invalidInput .usAscii 1) := by
  exact ⟨rfl, rfl⟩

example : latin1.encode "\u0080\u00ff" = .ok [0x80, 0xFF] ∧
    latin1.decode [0x80, 0xFF] = .ok "\u0080\u00ff" := by
  exact ⟨rfl, rfl⟩

example : latin1.encode "\u00ff\u0100" = .error (.unmappable .latin1 '\u0100') := by
  rfl

/-! ## Names -/

/-- **Names that agree up to case are names of the same charset.** -/
theorem ofName_of_sameIgnoringCase {a b : String} {c : Charset}
    (h : Text.sameIgnoringCase a b = true) (ha : ofName a = .ok c) : ofName b = .ok c := by
  have hlower : Text.asciiLower a = Text.asciiLower b := of_decide_eq_true h
  unfold ofName at ha ⊢
  rw [Text.asciiLower_trim, hlower, ← Text.asciiLower_trim] at ha
  split at ha
  · exact ha
  · cases ha

end EventWire.Charset

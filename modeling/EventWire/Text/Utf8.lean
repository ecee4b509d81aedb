import EventWire.Bytes

/-!
# UTF-8

A character takes one to four bytes. `encode` writes a text and `decode` reads
one back; where no character can be read, `decode` answers with the number of
bytes before that place. The reader takes shortest forms only, no surrogates and
nothing above U+10FFFF, so `next?` is the exact inverse of `encodeChar`.
-/

namespace EventWire.Text.Utf8

/-- A trailing byte carries six bits. -/
def trailByte (n : Nat) : UInt8 :=
  (0x80 + n % 64).toUInt8

/-- The bytes of one character. -/
def encodeChar (c : Char) : Bytes :=
  let n := c.toNat
  if n < 0x80 then [n.toUInt8]
  else if n < 0x800 then [(0xC0 + n / 64).toUInt8, trailByte n]
  else if n < 0x10000 then [(0xE0 + n / 4096).toUInt8, trailByte (n / 64), trailByte n]
  else [(0xF0 + n / 262144).toUInt8, trailByte (n / 4096), trailByte (n / 64), trailByte n]

/-- The bytes of a text. -/
def encode (cs : List Char) : Bytes :=
  cs.flatMap encodeChar

/-- The six bits of a trailing byte. -/
def trailBits? (b : UInt8) : Option Nat :=
  if 0x80 ≤ b.toNat ∧ b.toNat < 0xC0 then some (b.toNat - 0x80) else none

/-- The character of number `n`, if its shortest form starts at `least`. -/
def charFrom? (least n : Nat) : Option Char :=
  if h : n.isValidChar ∧ least ≤ n then some (Char.ofNatAux n h.1) else none

/-- Reads one character and gives what follows it. -/
def next? : Bytes → Option (Char × Bytes)
  | [] => none
  | a :: rest =>
    let lead := a.toNat
    if lead < 0x80 then (charFrom? 0 lead).map (·, rest)
    else if lead < 0xC0 then none
    else if lead < 0xE0 then
      match rest with
      | b :: rest => do
        let x ← trailBits? b
        (charFrom? 0x80 ((lead - 0xC0) * 64 + x)).map (·, rest)
      | _ => none
    else if lead < 0xF0 then
      match rest with
      | b :: c :: rest => do
        let x ← trailBits? b
        let y ← trailBits? c
        (charFrom? 0x800 ((lead - 0xE0) * 4096 + x * 64 + y)).map (·, rest)
      | _ => none
    else
      match rest with
      | b :: c :: d :: rest => do
        let x ← trailBits? b
        let y ← trailBits? c
        let z ← trailBits? d
        (charFrom? 0x10000 ((lead - 0xF0) * 262144 + x * 4096 + y * 64 + z)).map (·, rest)
      | _ => none

/-- Reading a character leaves fewer bytes. -/
theorem length_lt_of_next? {bs rest : Bytes} {c : Char} (h : next? bs = some (c, rest)) :
    rest.length < bs.length := by
  unfold next? at h
  split at h
  · simp at h
  · simp only [] at h
    repeat' split at h
    all_goals
      simp only [Option.map_eq_some_iff, Option.bind_eq_bind, Option.bind_eq_some_iff,
        Prod.mk.injEq, reduceCtorEq] at h
    · obtain ⟨_, _, _, rfl⟩ := h; simp only [List.length_cons]; omega
    · obtain ⟨_, _, _, _, _, rfl⟩ := h; simp only [List.length_cons]; omega
    · obtain ⟨_, _, _, _, _, _, _, rfl⟩ := h; simp only [List.length_cons]; omega
    · obtain ⟨_, _, _, _, _, _, _, _, _, rfl⟩ := h; simp only [List.length_cons]; omega

/-- Reads a text, or gives the length of the longest readable beginning that ends
where no character starts. -/
def decode (bs : Bytes) : Except Nat (List Char) :=
  match bs with
  | [] => .ok []
  | b :: tail =>
    match _h : next? (b :: tail) with
    | none => .error 0
    | some (c, rest) =>
      match decode rest with
      | .ok cs => .ok (c :: cs)
      | .error n => .error (tail.length + 1 - rest.length + n)
  termination_by bs.length
  decreasing_by exact length_lt_of_next? _h

/-- The number of bytes a text takes. -/
def size (s : String) : Nat :=
  (encode s.toList).length

end EventWire.Text.Utf8

import EventWire.Text.Quoted
import EventWire.Bytes
import EventWire.Json.Basic

/-!
# Base64

`encode` writes bytes in the standard alphabet: three bytes as four characters,
with `=` where the last group is short. `decode?` reads exactly the texts that
`encode` writes: the padding must be there and the unused bits of a short group
must be zero.

A `Base64` payload is such a text, or any other, with the bytes that are known to
stand for it. `bytes?` decodes on demand and keeps what it finds. In JSON the payload
is its text.
-/

namespace EventWire

namespace Base64

/-- The character of six bits. -/
def symbol (n : Nat) : Char :=
  if n < 26 then Char.ofNat ('A'.toNat + n)
  else if n < 52 then Char.ofNat ('a'.toNat + (n - 26))
  else if n < 62 then Char.ofNat ('0'.toNat + (n - 52))
  else if n = 62 then '+' else '/'

/-- The six bits of a character of the alphabet. -/
def symbolValue? (c : Char) : Option Nat :=
  if 'A' ≤ c ∧ c ≤ 'Z' then some (c.toNat - 'A'.toNat)
  else if 'a' ≤ c ∧ c ≤ 'z' then some (c.toNat - 'a'.toNat + 26)
  else if '0' ≤ c ∧ c ≤ '9' then some (c.toNat - '0'.toNat + 52)
  else if c = '+' then some 62
  else if c = '/' then some 63
  else none

/-- The text of a list of bytes. -/
def encodeChars : Bytes → List Char
  | [] => []
  | [a] =>
    [symbol (a.toNat / 4), symbol (a.toNat % 4 * 16), '=', '=']
  | [a, b] =>
    [symbol (a.toNat / 4), symbol (a.toNat % 4 * 16 + b.toNat / 16),
      symbol (b.toNat % 16 * 4), '=']
  | a :: b :: c :: rest =>
    symbol (a.toNat / 4) :: symbol (a.toNat % 4 * 16 + b.toNat / 16) ::
      symbol (b.toNat % 16 * 4 + c.toNat / 64) :: symbol (c.toNat % 64) :: encodeChars rest

/-- The byte of a group of two characters and two signs of padding. -/
def shortGroup? (w x : Char) : Option Bytes :=
  match symbolValue? w, symbolValue? x with
  | some w, some x => if x % 16 = 0 then some [(w * 4 + x / 16).toUInt8] else none
  | _, _ => none

/-- The bytes of a group of three characters and a sign of padding. -/
def middleGroup? (w x y : Char) : Option Bytes :=
  match symbolValue? w, symbolValue? x, symbolValue? y with
  | some w, some x, some y =>
    if y % 4 = 0 then some [(w * 4 + x / 16).toUInt8, (x % 16 * 16 + y / 4).toUInt8] else none
  | _, _, _ => none

/-- The bytes of a full group. -/
def fullGroup? (w x y z : Char) : Option Bytes :=
  match symbolValue? w, symbolValue? x, symbolValue? y, symbolValue? z with
  | some w, some x, some y, some z =>
    some [(w * 4 + x / 16).toUInt8, (x % 16 * 16 + y / 4).toUInt8, (y % 4 * 64 + z).toUInt8]
  | _, _, _, _ => none

/-- The bytes of a text. Padding may stand at the very end only. -/
def decodeChars? : List Char → Option Bytes
  | [] => some []
  | [w, x, '=', '='] => shortGroup? w x
  | [w, x, y, '='] => middleGroup? w x y
  | w :: x :: y :: z :: rest =>
    match fullGroup? w x y z, decodeChars? rest with
    | some group, some bs => some (group ++ bs)
    | _, _ => none
  | _ => none

/-- Writes bytes as text. -/
def encode (bs : Bytes) : String :=
  String.ofList (encodeChars bs)

/-- Reads text as bytes. -/
def decode? (s : String) : Option Bytes :=
  decodeChars? s.toList

/-! ## Decoding what was encoded -/

theorem symbolValue?_symbol : ∀ n : Nat, n < 64 → symbolValue? (symbol n) = some n := by
  decide

/-- A character of the alphabet is no sign of padding. -/
theorem symbol_ne_padding : ∀ n : Nat, n < 64 → symbol n ≠ '=' := by
  decide

theorem shortGroup?_symbol (a : UInt8) :
    shortGroup? (symbol (a.toNat / 4)) (symbol (a.toNat % 4 * 16)) = some [a] := by
  have ha := a.toNat_lt
  unfold shortGroup?
  rw [symbolValue?_symbol _ (by omega), symbolValue?_symbol _ (by omega)]
  simp only [show a.toNat % 4 * 16 % 16 = 0 by omega, if_true]
  rw [show a.toNat / 4 * 4 + a.toNat % 4 * 16 / 16 = a.toNat by omega]
  simp

theorem middleGroup?_symbol (a b : UInt8) :
    middleGroup? (symbol (a.toNat / 4)) (symbol (a.toNat % 4 * 16 + b.toNat / 16))
      (symbol (b.toNat % 16 * 4)) = some [a, b] := by
  have ha := a.toNat_lt
  have hb := b.toNat_lt
  unfold middleGroup?
  rw [symbolValue?_symbol _ (by omega), symbolValue?_symbol _ (by omega),
    symbolValue?_symbol _ (by omega)]
  simp only [show b.toNat % 16 * 4 % 4 = 0 by omega, if_true]
  rw [show a.toNat / 4 * 4 + (a.toNat % 4 * 16 + b.toNat / 16) / 16 = a.toNat by omega,
    show (a.toNat % 4 * 16 + b.toNat / 16) % 16 * 16 + b.toNat % 16 * 4 / 4 = b.toNat by omega]
  simp

theorem fullGroup?_symbol (a b c : UInt8) :
    fullGroup? (symbol (a.toNat / 4)) (symbol (a.toNat % 4 * 16 + b.toNat / 16))
      (symbol (b.toNat % 16 * 4 + c.toNat / 64)) (symbol (c.toNat % 64)) = some [a, b, c] := by
  have ha := a.toNat_lt
  have hb := b.toNat_lt
  have hc := c.toNat_lt
  unfold fullGroup?
  rw [symbolValue?_symbol _ (by omega), symbolValue?_symbol _ (by omega),
    symbolValue?_symbol _ (by omega), symbolValue?_symbol _ (by omega)]
  simp only []
  rw [show a.toNat / 4 * 4 + (a.toNat % 4 * 16 + b.toNat / 16) / 16 = a.toNat by omega,
    show (a.toNat % 4 * 16 + b.toNat / 16) % 16 * 16
      + (b.toNat % 16 * 4 + c.toNat / 64) / 4 = b.toNat by omega,
    show (b.toNat % 16 * 4 + c.toNat / 64) % 4 * 64 + c.toNat % 64 = c.toNat by omega]
  simp

theorem decodeChars?_encodeChars (bs : Bytes) : decodeChars? (encodeChars bs) = some bs := by
  induction bs using encodeChars.induct with
  | case1 => rfl
  | case2 a => exact shortGroup?_symbol a
  | case3 a b =>
    have hb := b.toNat_lt
    have hne := symbol_ne_padding (b.toNat % 16 * 4) (by omega)
    rw [encodeChars, decodeChars?]
    · exact middleGroup?_symbol a b
    · exact fun h => hne h
  | case4 a b c rest ih =>
    have hne := symbol_ne_padding (c.toNat % 64) (by omega)
    rw [encodeChars, decodeChars?]
    · rw [fullGroup?_symbol, ih]; rfl
    · exact fun _ h _ => hne h
    · exact fun h _ => hne h

/-- Text that was written for bytes decodes to these bytes. -/
theorem decode?_encode (bs : Bytes) : decode? (encode bs) = some bs := by
  rw [decode?, encode, String.toList_ofList, decodeChars?_encodeChars]

end Base64

/-- Binary content carried as base64 text. The bytes that are known are those the
text decodes to. -/
structure Base64 where
  text : String
  known : Option Bytes
  sound : ∀ bs, known = some bs → Base64.decode? text = some bs
  deriving DecidableEq

namespace Base64

/-- Bytes are encoded at once and stay known. -/
def ofBytes (bs : Bytes) : Base64 where
  text := encode bs
  known := some bs
  sound := fun _ h => Option.some.inj h ▸ decode?_encode bs

/-- Text is taken as it is, without decoding it. -/
def ofText (s : String) : Base64 where
  text := s
  known := none
  sound := nofun

/-- The bytes, and the payload that knows them from now on. A text that does not
decode leaves the payload as it is. -/
def bytes? (p : Base64) : Option Bytes × Base64 :=
  match p.known with
  | some bs => (some bs, p)
  | none =>
    match h : decode? p.text with
    | some bs => (some bs, { text := p.text, known := some bs, sound := fun _ e => e ▸ h })
    | none => (none, p)

/-- The bytes of the payload. -/
def content? (p : Base64) : Option Bytes :=
  p.bytes?.1

/-- True once the bytes are known. -/
def isKnown (p : Base64) : Bool :=
  p.known.isSome

/-- Payloads are the same when their texts are. -/
def same (a b : Base64) : Bool :=
  a.text = b.text

/-- The payload as JSON: its text. -/
def toJson (p : Base64) : Json :=
  .string p.text

/-- The payload that JSON stands for. Its text is not decoded yet. -/
def ofJson? : Json → Option Base64
  | .string s => some (ofText s)
  | _ => none

/-- The payload in a diagnostic. -/
def debugText (p : Base64) : String :=
  s!"Base64Payload({Text.quoted p.text})"

end Base64

end EventWire

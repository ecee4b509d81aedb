/-!
# Bytes

Wire data is a list of bytes. A list of bytes has a hexadecimal form, two small
digits a byte, and `ofHex?` reads exactly such forms, with digits of any case.
-/

namespace EventWire

/-- Wire data. -/
abbrev Bytes := List UInt8

/-- The value of a hexadecimal digit of any case. -/
def hexValue? (c : Char) : Option Nat :=
  if '0' ≤ c ∧ c ≤ '9' then some (c.toNat - '0'.toNat)
  else if 'a' ≤ c ∧ c ≤ 'f' then some (c.toNat - 'a'.toNat + 10)
  else if 'A' ≤ c ∧ c ≤ 'F' then some (c.toNat - 'A'.toNat + 10)
  else none

/-- The small hexadecimal digit of a number below sixteen. -/
def hexDigit (n : Nat) : Char :=
  if n < 10 then Char.ofNat ('0'.toNat + n) else Char.ofNat ('a'.toNat + (n - 10))

theorem hexValue?_hexDigit (n : Fin 16) : hexValue? (hexDigit n) = some n.val := by
  revert n; decide

namespace Bytes

/-- The hexadecimal form of a list of bytes. -/
def toHex (bs : Bytes) : String :=
  String.ofList (bs.flatMap fun b => [hexDigit (b.toNat / 16), hexDigit (b.toNat % 16)])

/-- Reads pairs of hexadecimal digits. -/
def ofHexChars? : List Char → Option Bytes
  | [] => some []
  | [_] => none
  | hi :: lo :: rest =>
    match hexValue? hi, hexValue? lo, ofHexChars? rest with
    | some h, some l, some bs => some ((16 * h + l).toUInt8 :: bs)
    | _, _, _ => none

/-- Reads a hexadecimal form. -/
def ofHex? (s : String) : Option Bytes :=
  ofHexChars? s.toList

end Bytes

end EventWire

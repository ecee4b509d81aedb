import EventWire.Decimal.Shortest

/-!
# How a double is laid out as text

A `Layout` fixes the decisions that the value leaves open: which of two equally near
digit rows is taken, which numbers are written positionally, whether a whole number
keeps a fraction, and how the exponent is marked. `render` applies a layout to the
shortest digits.
-/

namespace EventWire.Decimal

/-- The decisions of a number format. `positional p` says whether a number whose
decimal point stands after its `p`-th digit is written without an exponent. -/
structure Layout where
  tie : Tie
  positional : Int → Bool
  wholeFraction : Bool
  exponentSign : Bool

/-- The decimal digits of a natural number. -/
def digitsOf (n : Nat) : List Char :=
  Nat.toDigits 10 n

/-- The decimal digits of an integer, with a minus sign when it is negative. -/
def integerDigits (i : Int) : List Char :=
  if i < 0 then '-' :: digitsOf i.natAbs else digitsOf i.natAbs

/-- The text of a magnitude without an exponent. -/
def Layout.plain (l : Layout) (digits : List Char) (exponent : Int) : List Char :=
  let point := (digits.length : Int) + exponent
  if 0 ≤ exponent then
    digits ++ List.replicate exponent.toNat '0' ++ (if l.wholeFraction then ['.', '0'] else [])
  else if 0 < point then
    digits.take point.toNat ++ '.' :: digits.drop point.toNat
  else
    '0' :: '.' :: List.replicate (-point).toNat '0' ++ digits

/-- The text of a magnitude with an exponent. -/
def Layout.scientific (l : Layout) (digits : List Char) (exponent : Int) : List Char :=
  let power := (digits.length : Int) + exponent - 1
  let mantissa :=
    match digits with
    | d :: rest => if rest.isEmpty then [d] else d :: '.' :: rest
    | [] => []
  let sign := if l.exponentSign && decide (0 ≤ power) then ['+'] else []
  mantissa ++ 'e' :: sign ++ integerDigits power

/-- The text of a double. -/
def Layout.render (l : Layout) (x : Binary64) : List Char :=
  let d := shortest l.tie x.pattern
  let digits := digitsOf d.digits
  let point := (digits.length : Int) + d.exponent
  let body :=
    if l.positional point then l.plain digits d.exponent else l.scientific digits d.exponent
  if x.negative then '-' :: body else body

end EventWire.Decimal

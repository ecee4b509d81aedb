/-!
# Double-precision numbers in exact arithmetic

Every finite double is a whole number of units of `2^-1074`, so arithmetic on
doubles is arithmetic on natural numbers followed by one rounding.

A magnitude is kept as its IEEE 754 pattern without the sign. With `s` binades
above the first one and significand `m`, the pattern is `s * 2^52 + m` and the
value `m * 2^s` units; a significand that rounds up to `2^53` carries into the
next binade by itself. `roundQuotient` is the only place where rounding happens:
to the nearest pattern, ties to the even one.
-/

namespace EventWire.Decimal

/-- One binade of patterns. -/
def binade : Nat := 0x10000000000000

/-- The patterns from here on are no finite numbers. -/
def infinitePattern : Nat := 0x7FF * binade

/-- The units in one. -/
def unitsPerOne : Nat := Nat.pow 2 1074

/-- A finite double: its sign and the pattern of its magnitude. -/
structure Binary64 where
  negative : Bool
  pattern : Nat
  finite : pattern < infinitePattern := by decide
  deriving DecidableEq

namespace Binary64

/-- Binades above the first one, which holds the numbers below `2^53` units. -/
def scaleOf (pattern : Nat) : Nat :=
  pattern / binade - 1

/-- The significand of a pattern. -/
def significandOf (pattern : Nat) : Nat :=
  pattern - scaleOf pattern * binade

/-- The value of a pattern in units. -/
def unitsOf (pattern : Nat) : Nat :=
  significandOf pattern * Nat.pow 2 (scaleOf pattern)

/-- The quotient rounded to the nearest whole number, ties to even. -/
def divideToEven (n d : Nat) : Nat :=
  let q := n / d
  let twice := 2 * (n % d)
  if twice < d then q else if d < twice then q + 1 else q + q % 2

/-- The pattern nearest to `n / d` units, ties to even. The quotient lies `s`
binades up when it has `53 + s` bits. -/
def roundQuotient (n d : Nat) : Nat :=
  let s := (n / d).log2 + 1 - 53
  s * binade + divideToEven n (d * Nat.pow 2 s)

/-- The product of two magnitudes. -/
def multiply (a b : Nat) : Nat :=
  roundQuotient (unitsOf a * unitsOf b) unitsPerOne

/-- The quotient of two magnitudes. -/
def divide (a b : Nat) : Nat :=
  roundQuotient (unitsOf a * unitsPerOne) (unitsOf b)

/-- The magnitude nearest to a natural number. -/
def ofNat (n : Nat) : Nat :=
  roundQuotient (n * unitsPerOne) 1

/-- The magnitude nearest to a power of ten. -/
def powerOfTen (k : Nat) : Nat :=
  ofNat (Nat.pow 10 k)

/-- The largest power of ten that is a finite double. -/
def maxPower : Nat := 308

/-- Divides a magnitude by `10^k`, in steps by the largest power of ten. -/
def shrink (a k : Nat) : Nat :=
  if k ≤ maxPower then divide a (powerOfTen k)
  else if a = 0 then 0
  else shrink (divide a (powerOfTen maxPower)) (k - maxPower)
  termination_by k
  decreasing_by simp only [maxPower] at *; omega

/-- Multiplies a magnitude by `10^k`; `none` beyond the finite doubles. -/
def grow? (a k : Nat) : Option Nat :=
  if k ≤ maxPower then
    let p := multiply a (powerOfTen k)
    if p < infinitePattern then some p else none
  else if a = 0 then some 0 else none

/-- The double read from a significand and a power of ten: the significand is
rounded first, and then the product or quotient. -/
def ofParts? (negative : Bool) (significand : Nat) (exponent : Int) : Option Binary64 :=
  let a := ofNat significand
  let scaled := if 0 ≤ exponent then grow? a exponent.toNat else some (shrink a exponent.natAbs)
  scaled.bind fun p => if h : p < infinitePattern then some ⟨negative, p, h⟩ else none

/-- Equality of the numbers: the two zeros are one. -/
def sameValue (a b : Binary64) : Bool :=
  a.pattern = b.pattern && (a.negative = b.negative || a.pattern = 0)

end Binary64

end EventWire.Decimal

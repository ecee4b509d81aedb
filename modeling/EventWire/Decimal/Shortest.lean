import EventWire.Decimal.Binary64

/-!
# The fewest digits that read back

Between the midpoints to its two neighbours, a double is the nearest one to every
number (the midpoints belong to it when its significand is even). `shortest`
walks from coarse decimal grids to fine ones and tests the two grid points around
the value: the first grid with a hit gives the digits, of two hits the nearer one
is taken, and of two equally near the one that the tie rule says.
-/

namespace EventWire.Decimal

/-- Which of two equally near numbers is taken. -/
inductive Tie where
  | toEven
  | up
  deriving DecidableEq

/-- What is taken of `c` and the number after it. -/
def Tie.pick : Tie → Nat → Nat
  | .toEven, c => c + c % 2
  | .up, c => c + 1

/-- The number `digits * 10^exponent`. -/
structure Scientific where
  digits : Nat
  exponent : Int
  deriving DecidableEq

/-- The numbers that round to one double, in quarter units. -/
structure Interval where
  low : Nat
  value : Nat
  high : Nat
  closed : Bool
  deriving DecidableEq

/-- The interval of a pattern. At the foot of a binade the lower neighbour is
half as far away. -/
def Interval.ofPattern (pattern : Nat) : Interval :=
  let s := Binary64.scaleOf pattern
  let m := Binary64.significandOf pattern
  let step := Nat.pow 2 s
  let below := if m = binade ∧ 0 < s then step else 2 * step
  { low := 4 * m * step - below
    value := 4 * m * step
    high := 4 * m * step + 2 * step
    closed := m % 2 = 0 }

/-- True when `n / d` quarter units lie in the interval. -/
def Interval.holds (i : Interval) (n d : Nat) : Bool :=
  if i.closed then i.low * d ≤ n && n ≤ i.high * d else i.low * d < n && n < i.high * d

/-- The digits of the hit on the grid of step `10^k`, if there is one. -/
def gridHit? (tie : Tie) (i : Interval) (k : Int) : Option Nat :=
  let up := Nat.pow 10 k.toNat
  let down := Nat.pow 10 (-k).toNat
  let point := fun c : Nat => c * up * (4 * unitsPerOne)
  let exact := i.value * down
  let c := exact / (up * (4 * unitsPerOne))
  let lowHit := i.holds (point c) down
  let highHit := i.holds (point (c + 1)) down
  match lowHit, highHit with
  | false, false => none
  | true, false => some c
  | false, true => some (c + 1)
  | true, true =>
    -- Both points read back, so the nearer one is taken.
    let toLow := exact - point c
    let toHigh := point (c + 1) - exact
    if toLow < toHigh then some c
    else if toHigh < toLow then some (c + 1)
    else some (tie.pick c)

/-- The position of the leading digit: the value lies in
`[10^leading, 10^(leading + 1))`. -/
def leading (pattern : Nat) : Int :=
  ((Nat.toDigits 10 (Binary64.unitsOf pattern * Nat.pow 10 400 / unitsPerOne)).length : Int) - 401

/-- Drops the zeros at the end of the digits. -/
def Scientific.normalize : Nat → Scientific → Scientific
  | 0, d => d
  | fuel + 1, d =>
    if d.digits % 10 = 0 ∧ d.digits ≠ 0 then
      normalize fuel { digits := d.digits / 10, exponent := d.exponent + 1 }
    else d

/-- The first hit, going from the grid of step `10^k` to finer ones. -/
def firstHit (tie : Tie) (i : Interval) : Nat → Int → Scientific
  | 0, k => { digits := 0, exponent := k }
  | fuel + 1, k =>
    match gridHit? tie i k with
    | some d => Scientific.normalize 20 { digits := d, exponent := k }
    | none => firstHit tie i fuel (k - 1)

/-- The shortest decimal that reads back as the magnitude; seventeen digits
always do. -/
def shortest (tie : Tie) (pattern : Nat) : Scientific :=
  if pattern = 0 then { digits := 0, exponent := 0 }
  else firstHit tie (Interval.ofPattern pattern) 18 (leading pattern)

end EventWire.Decimal

/-!
# Sets of characters given by ranges

A property of characters is written as a list of closed intervals of code
points, and `inRanges` says whether a character lies in one of them. Every
table of this library is such a list, so a law about a property is a law about
membership in its list (`inRanges_iff`).
-/

namespace EventWire.Text

/-- True when some interval of the list holds the character's code point. -/
def inRanges (ranges : List (Nat × Nat)) (c : Char) : Bool :=
  ranges.any fun r => r.1 ≤ c.toNat && c.toNat ≤ r.2

theorem inRanges_iff {ranges : List (Nat × Nat)} {c : Char} :
    inRanges ranges c = true ↔ ∃ r ∈ ranges, r.1 ≤ c.toNat ∧ c.toNat ≤ r.2 := by
  simp [inRanges]

end EventWire.Text

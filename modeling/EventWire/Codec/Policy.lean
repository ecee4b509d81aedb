import EventWire.Codec.Error

/-!
# What to do about findings

A policy is shown findings one at a time and goes on or stops with an error. The
strict one stops at the first finding that is more than a warning
(`review_strict`), the lenient one never stops.
-/

namespace EventWire

/-- What to do about a finding: go on, or stop with an error. -/
abbrev Policy := Xml.Finding → Except SerializationError Unit

namespace Policy

/-- Stops at findings that are more than warnings. -/
def strict : Policy := fun f =>
  if f.isSerious then .error (.validation f) else .ok ()

/-- Goes on whatever is found. -/
def lenient : Policy := fun _ => .ok ()

/-- Shows findings to a policy in order, up to the one at which it stops. -/
def review (p : Policy) : List Xml.Finding → Except SerializationError Unit
  | [] => .ok ()
  | f :: rest =>
    match p f with
    | .ok _ => review p rest
    | .error e => .error e

/-- The strict policy stops at the first serious finding. -/
theorem review_strict (fs : List Xml.Finding) :
    review strict fs =
      match fs.find? (·.isSerious) with
      | none => .ok ()
      | some f => .error (.validation f) := by
  induction fs with
  | nil => rfl
  | cons f rest ih =>
    cases h : f.isSerious with
    | true => simp [review, strict, h]
    | false => simpa [review, strict, h] using ih

end Policy

end EventWire

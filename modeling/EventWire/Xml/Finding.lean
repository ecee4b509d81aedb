import EventWire.Xml.Node

/-!
# Findings about XML

A validator looks at a tree and reports findings, each with a severity and a
message. Whether the work goes on is for others to decide.
-/

namespace EventWire.Xml

/-- How bad a finding is. -/
inductive Severity where
  | warning
  | error
  | fatal
  deriving DecidableEq

namespace Severity

/-- The severity in words. -/
def label : Severity → String
  | .warning => "warning"
  | .error => "error"
  | .fatal => "fatal error"

/-- The place in the order of severities. -/
def rank : Severity → Nat
  | .warning => 0
  | .error => 1
  | .fatal => 2

end Severity

/-- Something noticed about a tree. -/
structure Finding where
  severity : Severity
  message : String
  deriving DecidableEq

/-- True for findings that are more than warnings. -/
def Finding.isSerious (f : Finding) : Bool :=
  Severity.warning.rank < f.severity.rank

/-- What a tree is checked for. -/
abbrev Validator := Node → List Finding

/-- Reports every listed attribute that the root lacks. -/
def requireAttributes (required : List (String × Severity)) : Validator :=
  fun root => required.filterMap fun (name, severity) =>
    if (root.attribute? name).isSome then none
    else some { severity, message := s!"{name} is missing" }

end EventWire.Xml

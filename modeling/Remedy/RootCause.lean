/-!
Root causes of diagnostics, in the order in which they are remedied, and how badly each blocks the
rest of a tree.
-/

set_option autoImplicit false

namespace Remedy

inductive RootCause where
  | syntactic
  | imports
  | types
  | unused
  | other
  deriving DecidableEq, Repr, Inhabited

inductive Severity where
  | critical
  | high
  | medium
  | low
  deriving DecidableEq, Repr, Inhabited

namespace RootCause

/-- Every root cause, the first to be remedied first. -/
def all : List RootCause := [.syntactic, .imports, .types, .unused, .other]

theorem mem_all (cause : RootCause) : cause ∈ all := by cases cause <;> simp [all]

def name : RootCause → String
  | .syntactic => "syntax"
  | .imports => "import"
  | .types => "type"
  | .unused => "unused"
  | .other => "other"

def ofName? (name : String) : Option RootCause := all.find? (·.name == name)

def priority : RootCause → Nat
  | .syntactic => 1
  | .imports => 2
  | .types => 3
  | .unused => 4
  | .other => 5

def severity : RootCause → Severity
  | .syntactic => .critical
  | .imports => .high
  | .types => .medium
  | .unused => .low
  | .other => .medium

end RootCause

def Severity.name : Severity → String
  | .critical => "critical"
  | .high => "high"
  | .medium => "medium"
  | .low => "low"

end Remedy

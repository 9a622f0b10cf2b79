import Remedy.Analysis

/-!
Phases: units of remediation that address the findings of one root cause. A phase has at least one
finding and a positive timeout for each attempt.
-/

set_option autoImplicit false

namespace Remedy

structure Phase where
  name : String
  cause : RootCause
  priority : Int
  timeout : Number
  retries : Nat
  required : Bool
  /-- The name under which the fixer is registered, and under which snapshots are kept. -/
  fixerRef : String
  findings : List Finding
  deriving Repr, Inhabited

namespace Phase

/-- A phase, unless it has no findings, no time, or a negative number of retries. -/
def make (name : String) (cause : RootCause) (priority : Int) (timeout : Number) (retries : Int)
    (required : Bool) (fixerRef : String) (findings : List Finding) : Except Invalid Phase :=
  if findings.isEmpty then .error (.emptyPhase name)
  else if timeout.le 0 then .error (.phaseTimeout name)
  else if retries < 0 then .error (.phaseRetries name)
  else .ok ⟨name, cause, priority, timeout, retries.toNat, required, fixerRef, findings⟩

/-- The files that the findings are in, sorted. -/
def files (p : Phase) : List Path :=
  (distinct (p.findings.map fun f => Path.ofString f.file)).mergeSort Path.le

/-- How often the fixer may be called. -/
def maxAttempts (p : Phase) : Nat := p.retries + 1

def errorCount (p : Phase) : Nat := p.findings.length

end Phase

end Remedy

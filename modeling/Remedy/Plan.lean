import Remedy.Config
import Remedy.Phase

/-!
Planning: one phase for each root cause that occurs, in order of priority. The settings of a phase
are those of the override where one is given and the built-in ones otherwise, and never exceed the
ceilings.
-/

set_option autoImplicit false

namespace Remedy

/-- Built-in settings of the phase of a root cause. -/
structure PhaseDefaults where
  name : String
  timeout : Number
  retries : Nat
  required : Bool

def PhaseDefaults.of : RootCause → PhaseDefaults
  | .syntactic => ⟨"Syntax Fixes", 300, 2, true⟩
  | .imports => ⟨"Import Fixes", 180, 1, true⟩
  | .types => ⟨"Type Fixes", 240, 1, false⟩
  | .unused => ⟨"Unused Cleanup", 120, 1, false⟩
  | .other => ⟨"Other Fixes", 120, 0, false⟩

namespace PlannerConfig

/-- A name that is missing or empty does not override. -/
def phaseName (override : PhaseOverride) (name : String) : String :=
  match override.name with
  | some given => if given.isEmpty then name else given
  | none => name

/-- The phase of a root cause for its findings. -/
def phase (c : PlannerConfig) (cause : RootCause) (group : List Finding) : Except Invalid Phase :=
  let defaults := PhaseDefaults.of cause
  let override := (Json.lookup cause.name c.phases).getD {}
  let timeout := override.timeout.getD defaults.timeout
  let retries := override.retries.getD defaults.retries
  Phase.make (phaseName override defaults.name) cause cause.priority
    (match c.timeoutCeiling with | some ceiling => timeout.min ceiling | none => timeout)
    (match c.retriesCeiling with | some ceiling => min retries ceiling | none => retries)
    (override.required.getD defaults.required) cause.name (group.mergeSort Finding.placeLe)

/-- Whether a phase may stand before another: by priority, then the larger one, then by name. -/
def phaseLe (a b : Phase) : Bool :=
  a.priority < b.priority ||
    (a.priority == b.priority &&
      (b.errorCount < a.errorCount ||
        (a.errorCount == b.errorCount && !decide (b.name < a.name))))

/-- The phases for findings in any order. -/
def phasesFor (c : PlannerConfig) (found : List Finding) : Except Invalid (List Phase) := do
  let groups := (distinct (found.map (·.cause))).map fun cause =>
    (cause, found.filter fun f => f.cause = cause)
  let phases ← groups.mapM fun g => c.phase g.1 g.2
  return phases.mergeSort phaseLe

end PlannerConfig

/-- Plans the phases for findings. -/
def plan (c : PlannerConfig) (found : List Finding) : Act (List Phase) := do
  match c.phasesFor found with
  | .error cause => throw (.invalid cause)
  | .ok phases =>
    Act.log .info "plan_created"
      [("phases", .strs (phases.map (·.name))),
        ("errors", (phases.foldl (fun (n : Nat) p => n + p.errorCount) 0 : Nat))]
    return phases

end Remedy

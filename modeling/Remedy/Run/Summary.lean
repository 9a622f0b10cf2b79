import Remedy.Run.Context

/-!
The summary of a run. The number of findings that are left is the one that was measured, or else the
number at the start less what the fixers say that they fixed, and never below zero.
-/

set_option autoImplicit false

namespace Remedy

structure RunSummary where
  runId : String
  initialErrorCount : Number
  finalErrorCount : Number
  fixedCount : Number
  history : List PhaseResult
  validation : Option ValidationSummary
  state : RunState
  warnings : List String
  backupEnabled : Bool
  dryRun : Bool
  /-- Whether the number of findings that are left was measured. -/
  measured : Bool
  deriving Repr

namespace RunSummary

/-- The number of findings less what was fixed, but not below zero. -/
def estimate (initial fixed : Number) : Except Fault Number :=
  match initial.sub? fixed with
  | some left => .ok (left.max 0)
  | none => .error (.overflow .conversion)

def ofContext (c : RunContext) (initial : Number) (final : Option Number) :
    Except Fault RunSummary := do
  let fixed ← c.fixedCount
  let left ← match final with
    | some count => pure count
    | none => estimate initial fixed
  return {
    runId := c.runId
    initialErrorCount := initial
    finalErrorCount := left
    fixedCount := fixed
    history := c.history
    validation := c.validation
    state := c.state
    warnings := c.warnings
    backupEnabled := c.config.backupEnabled
    dryRun := c.config.dryRun
    measured := final.isSome }

def exitCode (s : RunSummary) : Nat := s.state.exitCode

def success (s : RunSummary) : Bool := s.state = .completed

def json (s : RunSummary) : Json :=
  .obj [
    ("run_id", s.runId),
    ("initial_error_count", s.initialErrorCount),
    ("final_error_count", s.finalErrorCount),
    ("final_count_measured", s.measured),
    ("fixed_count", s.fixedCount),
    ("terminal_state", s.state.name),
    ("exit_code", s.exitCode),
    ("backup_enabled", s.backupEnabled),
    ("dry_run", s.dryRun),
    ("warnings", .strs s.warnings),
    ("history", .arr (s.history.map PhaseResult.json)),
    ("validation", Json.ofOption ValidationSummary.json s.validation)]

end RunSummary

end Remedy

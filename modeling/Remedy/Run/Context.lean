import Remedy.Backup.Store
import Remedy.Config
import Remedy.Fixer
import Remedy.Validation

/-!
What is known of one run: its state and how it got there, a result for each phase that is settled,
the snapshots taken, and what there is to warn of. Results and transitions are only ever added.
-/

set_option autoImplicit false

namespace Remedy

structure PhaseResult where
  phase : String
  success : Bool
  message : Json
  fixedCount : Number := 0
  executionTime : Number := seconds 0
  attempts : Nat := 0
  rolledBack : Bool := false
  details : List (String × Json) := []
  deriving Repr

namespace PhaseResult

def retriesUsed (r : PhaseResult) : Nat := r.attempts - 1

def json (r : PhaseResult) : Json :=
  .obj [
    ("phase", r.phase),
    ("success", r.success),
    ("message", r.message),
    ("fixed_count", r.fixedCount),
    ("execution_time", r.executionTime.rounded),
    ("attempts", r.attempts),
    ("retries_used", r.retriesUsed),
    ("rolled_back", r.rolledBack),
    ("details", .obj r.details)]

end PhaseResult

structure Transition where
  source : RunState
  target : RunState
  phase : Option String
  reason : String
  deriving DecidableEq, Repr

structure RunContext where
  runId : String
  project : Route
  config : RunConfig
  state : RunState := .idle
  history : List PhaseResult := []
  transitions : List Transition := []
  snapshots : List (String × Snapshot) := []
  warnings : List String := []
  validation : Option ValidationSummary := none
  error : Option String := none
  /-- Whether a fixer has been called. -/
  mutated : Bool := false
  deriving Repr

namespace RunContext

/-- How many findings the fixers say that they fixed. -/
def fixedCount (c : RunContext) : Except Fault Number :=
  Number.sum (c.history.map (·.fixedCount))

def isFinished (c : RunContext) : Bool := c.state.isTerminal

def record (c : RunContext) (r : PhaseResult) : RunContext :=
  { c with history := c.history ++ [r] }

/-- Adds a warning, unless it is there already. -/
def warn (c : RunContext) (text : String) : RunContext :=
  { c with warnings := if c.warnings.contains text then c.warnings else c.warnings ++ [text] }

def keep (c : RunContext) (s : Snapshot) : RunContext :=
  { c with snapshots := Json.insert s.key s c.snapshots }

/-- Moves to a state; staying in the same one is no move. -/
def move (c : RunContext) (target : RunState) (phase : Option String) (reason : String) :
    Except Fault RunContext :=
  if c.state = target then .ok c
  else if c.state.next.contains target then
    .ok { c with
      state := target
      transitions := c.transitions ++ [⟨c.state, target, phase, reason⟩] }
  else .error (.transition c.state target)

end RunContext

end Remedy

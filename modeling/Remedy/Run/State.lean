/-!
States of a run and the moves between them. A run starts idle and ends in one of five terminal
states, each with an exit code of its own; `RunState.next` lists the moves that are allowed.
-/

set_option autoImplicit false

namespace Remedy

inductive RunState where
  | idle
  | backingUp
  | executing
  | retrying
  | rollingBack
  | validating
  | completed
  | rolledBack
  | failed
  | aborted
  | rollbackFailed
  deriving DecidableEq, Repr, Inhabited

namespace RunState

def all : List RunState :=
  [.idle, .backingUp, .executing, .retrying, .rollingBack, .validating, .completed, .rolledBack,
    .failed, .aborted, .rollbackFailed]

def name : RunState → String
  | .idle => "idle"
  | .backingUp => "backing_up"
  | .executing => "executing"
  | .retrying => "retrying"
  | .rollingBack => "rolling_back"
  | .validating => "validating"
  | .completed => "completed"
  | .rolledBack => "rolled_back"
  | .failed => "failed"
  | .aborted => "aborted"
  | .rollbackFailed => "rollback_failed"

def ofName? (name : String) : Option RunState := all.find? (·.name == name)

def isTerminal : RunState → Bool
  | .completed | .rolledBack | .failed | .aborted | .rollbackFailed => true
  | _ => false

/-- The exit code of a process whose run ended here. -/
def exitCode : RunState → Nat
  | .completed => 0
  | .failed => 1
  | .rolledBack => 2
  | .aborted => 3
  | .rollbackFailed => 4
  | _ => 1

/-- The states that a run may move to. -/
def next : RunState → List RunState
  | .idle => [.backingUp]
  | .backingUp => [.executing, .validating, .completed, .aborted]
  | .executing => [.retrying, .rollingBack, .validating, .completed, .failed, .aborted]
  | .retrying => [.executing, .rollingBack, .validating, .completed, .failed]
  | .rollingBack => [.rolledBack, .rollbackFailed]
  | .validating => [.completed, .failed]
  | _ => []

end RunState

end Remedy

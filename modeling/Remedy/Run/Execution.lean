import Remedy.Fixer.Registry
import Remedy.Phase
import Remedy.Retry
import Remedy.Run.Context

/-!
Execution of a run. The files of all phases are recorded before anything is touched. Then each phase
is carried out in order of priority: its files are recorded, its fixer is called until an attempt
succeeds or none is left, and the result is added to the history. The failure of a phase that is
required ends the run, after the files of the phase have been put back. After the last phase the
checks are run.

Until a fixer has been called, the record of all files still holds what they contain, and a part of
it serves as the record of a phase.

A run keeps an account of itself: a scene for each change of its context, each phase that is begun,
each set of files that could not be recorded and each call of a fixer. Nothing in a run looks at the
account; it is what laws about the course of a run speak of.
-/

set_option autoImplicit false

namespace Remedy

/-- Whom a run calls. -/
structure Crew where
  registry : Registry
  checks : List Check

/-- What a scene of a run shows. -/
inductive Occurrence where
  /-- The context has changed. -/
  | change
  /-- A phase is begun. -/
  | start (phase : Phase)
  /-- The files of a phase, or of all phases, could not be recorded. -/
  | refusal (phase : Option Phase)
  /-- The fixer of a phase is called, in the attempt of a number. -/
  | call (phase : Phase) (number : Nat) (request : FixRequest)

/-- A moment of a run: the context and the files as they are then. -/
structure Scene where
  occurrence : Occurrence
  context : RunContext
  files : FileTree

/-- How far a run has come. -/
structure Progress where
  /-- The number of the attempt that was begun last in the present phase. -/
  attempt : Nat := 0
  /-- The scenes of the run so far, the last one first. -/
  account : List Scene := []

/-- A run that has not begun. -/
instance : Zero Progress := ⟨{}⟩

/-- What an execution works on. -/
structure Bench where
  world : World
  store : Store
  context : RunContext
  progress : Progress := 0

namespace Bench

/-- Adds a scene of the present moment to the account. -/
def note (b : Bench) (o : Occurrence) : Bench :=
  { b with progress := { b.progress with
    account := ⟨o, b.context, b.world.files⟩ :: b.progress.account } }

/-- Changes the context. -/
def change (b : Bench) (f : RunContext → RunContext) : Bench :=
  ({ b with context := f b.context } : Bench).note .change

end Bench

abbrev RunAct := ExceptT Fault (StateM Bench)

namespace RunAct

def lift {α : Type} (act : Act α) : RunAct α := fun b =>
  let (outcome, world) := act b.world
  (outcome, { b with world := world })

def update (f : RunContext → RunContext) : RunAct Unit := modify (·.change f)

def note (o : Occurrence) : RunAct Unit := modify (·.note o)

def log (level : LogLevel) (name : String) (fields : List (String × Json)) : RunAct Unit :=
  lift (Act.log level name fields)

def count (tally : Meter.Tally) (amount : Number) (cause : RootCause) : RunAct Unit :=
  lift (Act.count tally amount [("root_cause", cause.name)])

/-- Moves the run to a state. -/
def moveTo (target : RunState) (phase : Option String) (reason : String) : RunAct Unit := do
  let source := (← get).context.state
  if source = target then return ()
  match (← get).context.move target phase reason with
  | .error fault => throw fault
  | .ok context =>
    update fun _ => context
    log .info "run_state_changed"
      [("source", source.name), ("target", target.name), ("phase", Json.ofOption .str phase),
        ("reason", if reason.isEmpty then .null else reason)]

/-- Where a path of a finding leads. -/
def resolve (p : Path) : RunAct Route := fun b =>
  (b.world.files.resolve ((Route.path b.context.project).join p), b)

/-- The files of a phase, each once and in order. -/
def filesOf (phase : Phase) : RunAct (List Route) := do
  return (distinct (← phase.files.mapM resolve)).mergeSort Route.le

/-- Records files and keeps the record in the store and the context. -/
def takeSnapshot (key : String) (files : List Route) : RunAct Snapshot := do
  let b ← get
  lift Act.giveWay
  let (snapshot, store) ← lift (b.store.snapshot b.context.runId key (files.map Route.path))
  modify fun b => { b with store := store }
  update (·.keep snapshot)
  return snapshot

/-- The record of the files of a phase. -/
def phaseSnapshot (phase : Phase) (files : List Route) (whole : Option Snapshot) :
    RunAct Snapshot := do
  let b ← get
  match whole with
  | some whole =>
    if !b.context.mutated && whole.covers files then
      match whole.restrict files phase.fixerRef with
      | .error fault => throw fault
      | .ok part =>
        let store ← lift (b.store.record part)
        modify fun b => { b with store := store }
        update (·.keep part)
        return part
    else takeSnapshot phase.fixerRef files
  | none => takeSnapshot phase.fixerRef files

/-! ### Attempts -/

/-- What the ending of a fixer's work means for the attempt. -/
def judge (phase : Phase) (number : Nat) : Settled FixReply → RunAct FixReport
  | .overdue => overdue s!"{phase.name} timed out after {phase.timeout.text}s"
  | .ended (.error (.cancelled _)) => throw (.fixer (.cancelled phase.name))
  | .ended (.error fault) => do
    if fault.isA .operationTimeout then overdue fault.message
    else
      log .warning "fixer_error"
        [("attempt", number), ("exception_type", fault.kind.name),
          ("exception_message", fault.message)]
      throw (.fixer (.raised phase.name fault.kind fault.message))
  | .ended (.ok reply) => do
    match reply.check phase.name with
    | .error fault => throw fault
    | .ok r =>
      if r.success.truthy then return r
      else
        log .warning "fixer_error" [("attempt", number), ("reported", r.message)]
        throw (.fixer (.reported phase.name r.message.shown))
where
  overdue (text : String) : RunAct FixReport := do
    count .fixerTimeouts 1 phase.cause
    log .warning "phase_timeout" [("attempt", number), ("timeout", phase.timeout)]
    throw (.phaseTimeout text phase.timeout)

/-- Calls the fixer of a phase once. -/
def callFixer (fixer : Fixer) (phase : Phase) (files : List Route) (number : Nat) :
    RunAct FixReport := do
  count .fixerAttempts 1 phase.cause
  log .info "fixer_attempt"
    [("attempt", number), ("max_attempts", phase.maxAttempts), ("timeout", phase.timeout)]
  update fun c => { c with mutated := true }
  if phase.timeout.toDouble?.isNone then throw (.overflow .conversion)
  let deadline := (← get).world.now + Moment.ofSeconds phase.timeout
  let request : FixRequest := ⟨files.map Route.path, phase.findings, deadline⟩
  note (.call phase number request)
  judge phase number (← lift (Act.race (fixer.fix request) phase.timeout))

/-- The attempt of a number. -/
def attemptPhase (fixer : Fixer) (phase : Phase) (files : List Route) (number : Nat) :
    RunAct FixReport := do
  modify fun b => { b with progress := { b.progress with attempt := number } }
  if 1 < number then
    moveTo .retrying (some phase.name) s!"attempt {number}/{phase.maxAttempts}"
  callFixer fixer phase files number

/-! ### Results -/

/-- Adds the result of a phase that failed. -/
def recordFailure (phase : Phase) (message : String) (attempts : Nat) (elapsed : Number)
    (rolledBack : Bool) (details : List (String × Json)) : RunAct Unit :=
  update fun c => c.record
    { phase := phase.name, success := false, message := message, executionTime := elapsed,
      attempts := attempts, rolledBack := rolledBack, details := details }

/-- Puts the files of a phase back, which ends the run. -/
def rollBack (phase : Phase) (snapshot : Snapshot) (message : String) (attempts : Nat)
    (elapsed : Number) : RunAct Unit := do
  moveTo .rollingBack (some phase.name) message
  lift Act.giveWay
  match ← attempt (lift (Store.restore snapshot)) with
  | .error (.rollback failed total) =>
    let fault := Fault.rollback failed total
    let text := s!"{message}; rollback failed: {fault.message}"
    update fun c => { c with error := some text }
    recordFailure phase text attempts elapsed false [("unrestored", .strs failed)]
    moveTo .rollbackFailed (some phase.name) fault.message
  | .error fault => throw fault
  | .ok _ =>
    count .phasesRolledBack 1 phase.cause
    update fun c => { c with error := some message }
    recordFailure phase message attempts elapsed true [("restored", snapshot.fileCount)]
    moveTo .rolledBack (some phase.name) message

/-- Settles a phase whose attempts have all failed. -/
def settleFailure (phase : Phase) (snapshot : Option Snapshot) (message : String)
    (attempts : Nat) (elapsed : Number) : RunAct Unit := do
  count .phasesExecuted 1 phase.cause
  count .phasesFailed 1 phase.cause
  log .error "phase_failed"
    [("reason", message), ("attempts", attempts), ("required", phase.required)]
  let config := (← get).context.config
  match snapshot, phase.required && config.rollbackOnFailure with
  | some snapshot, true => rollBack phase snapshot message attempts elapsed
  | _, _ =>
    recordFailure phase message attempts elapsed false []
    if phase.required then
      update fun c =>
        { c.warn (if config.rollbackOnFailure then
            s!"{phase.name} failed and could not be rolled back: no snapshot"
          else s!"{phase.name} failed and rollback is disabled; files were left as is") with
          error := some message }
      moveTo .failed (some phase.name) message

def observeDuration (phase : Phase) (elapsed : Number) : RunAct Unit :=
  lift (modify fun w => { w with meter := { w.meter with
    phaseDuration := w.meter.phaseDuration.observe elapsed [("root_cause", phase.cause.name)] } })

/-- Settles a phase in which an attempt has succeeded. -/
def settleSuccess (phase : Phase) (r : FixReport) (attempts : Nat) (elapsed : Number) :
    RunAct Unit := do
  count .phasesExecuted 1 phase.cause
  observeDuration phase elapsed
  count .errorsFixed r.fixedCount.amount phase.cause
  let message : Json :=
    if r.message.truthy then r.message
    else s!"{phase.name} fixed {r.fixedCount.shown} of {phase.errorCount} errors"
  match r.details.record with
  | .error fault => throw fault
  | .ok details =>
    update fun c => c.record
      { phase := phase.name, success := true, message := message,
        fixedCount := r.fixedCount.amount, executionTime := elapsed, attempts := attempts,
        details := details }
    log .info "phase_succeeded"
      [("fixed", r.fixedCount), ("attempts", attempts), ("duration", elapsed.rounded)]

/-! ### Phases -/

/-- Says what a phase would do. -/
def rehearse (phase : Phase) (files : List Route) : RunAct Unit := do
  let shown := (phase.files.map Path.text).mergeSort fun a b => !decide (b < a)
  update fun c => c.record
    { phase := phase.name, success := true
      message := s!"Dry run: would fix {phase.errorCount} errors in {files.length} files"
      details := [("dry_run", true), ("would_fix", phase.errorCount), ("files", .strs shown)] }
  log .info "phase_skipped" [("reason", "dry_run")]

/-- Calls the fixer of a phase until an attempt succeeds or none is left. -/
def carryOut (phase : Phase) (files : List Route) (snapshot : Option Snapshot) (fixer : Fixer) :
    RunAct Unit := do
  let start := (← get).world.now
  let policy : RetryPolicy := { backoff := (← get).context.config.retryBackoff }
  let outcome ← attempt (retryFrom policy (attemptPhase fixer phase files)
    (fun number fault wait => lift (Act.rest number fault wait)) phase.retries 1)
  let elapsed ← lift (Act.since start)
  let attempts := (← get).progress.attempt
  match outcome with
  | .ok r => settleSuccess phase r attempts elapsed
  | .error fault =>
    if fault.isA .phaseTimeout || fault.isA .fixer then
      observeDuration phase elapsed
      settleFailure phase snapshot fault.message attempts elapsed
    else throw fault

/-- Settles a phase whose files could not be recorded, which ends the run. -/
def settleUnrecorded (phase : Phase) (fault : Fault) : RunAct Unit := do
  let message := s!"Backup failed for {phase.name}: {fault.message}"
  note (.refusal (some phase))
  recordFailure phase message 0 (seconds 0) false []
  update fun c => { c with error := some message }
  moveTo (if (← get).context.mutated then .failed else .aborted) (some phase.name) message

/-- Carries out a phase whose files are recorded, if they are to be. -/
def remedy (crew : Crew) (phase : Phase) (files : List Route) (snapshot : Option Snapshot) :
    RunAct Unit := do
  match crew.registry.get phase.fixerRef with
  | .error fault =>
    log .error "fixer_not_found" [("fixer_ref", phase.fixerRef)]
    settleFailure phase snapshot fault.message 0 (seconds 0)
  | .ok fixer => carryOut phase files snapshot fixer

def runPhase (crew : Crew) (whole : Option Snapshot) (phase : Phase) : RunAct Unit := do
  let files ← filesOf phase
  log .info "phase_started"
    [("root_cause", phase.cause.name), ("errors", phase.errorCount), ("files", files.length),
      ("timeout", phase.timeout), ("max_attempts", phase.maxAttempts)]
  let config := (← get).context.config
  if config.dryRun then rehearse phase files
  else if config.backupEnabled then
    match ← attempt (phaseSnapshot phase files whole) with
    | .ok snapshot => remedy crew phase files (some snapshot)
    | .error fault => if fault.isA .backup then settleUnrecorded phase fault else throw fault
  else remedy crew phase files none

/-! ### Runs -/

/-- Runs the checks, if there are any to run. -/
def runValidation (crew : Crew) : RunAct Unit := do
  let config := (← get).context.config
  if config.validationEnabled && !config.dryRun then
    if crew.checks.isEmpty then
      update fun c => c.warn "Validation is enabled but no checks are configured"
    else
      moveTo .validating none ""
      let summary ← lift (validate crew.checks)
      update fun c => { c with validation := some summary }

/-- Ends a run in which no phase has, by what the checks say. -/
def conclude : RunAct Unit := do
  let context := (← get).context
  if context.validation.all (·.overallSuccess) then moveTo .completed none ""
  else if context.config.continueOnValidationFailure then
    update fun c => c.warn "Validation failed; run completed because failures are ignored"
    moveTo .completed none "validation failed (ignored)"
  else
    update fun c => { c with error := some "Validation failed" }
    moveTo .failed none "Validation failed"

/-- Records the files of all phases, if that is to be done. A failure ends the run. -/
def recordAll (phases : List Phase) : RunAct (Option Snapshot) := do
  let config := (← get).context.config
  if phases.isEmpty || config.dryRun then return none
  if !config.backupEnabled then
    update fun c => c.warn "Backups are disabled: failures cannot be rolled back"
    log .warning "backups_disabled" []
    return none
  let files ← phases.mapM filesOf
  match ← attempt (takeSnapshot runKey files.flatten) with
  | .ok snapshot => return some snapshot
  | .error fault =>
    if !fault.isA .backup then throw fault
    let message := s!"Backup failed: {fault.message}"
    note (.refusal none)
    update fun c => { c with error := some message }
    moveTo .aborted none message
    return none

/-- Carries out phases one after the other until the run has ended. -/
def runPhases (crew : Crew) (whole : Option Snapshot) : List Phase → RunAct Unit
  | [] => do
    runValidation crew
    conclude
  | phase :: rest => do
    moveTo .executing (some phase.name) ""
    note (.start phase)
    lift (Act.bindField "phase" phase.name)
    andThenAlways (runPhase crew whole phase) (lift (Act.unbindField "phase"))
    if (← get).context.isFinished then return ()
    runPhases crew whole rest

def execute (crew : Crew) (phases : List Phase) : RunAct Unit := do
  moveTo .backingUp none ""
  let whole ← recordAll phases
  if (← get).context.isFinished then return ()
  runPhases crew whole phases

/-- Carries out the phases in order of priority and ends the run. -/
def run (crew : Crew) (phases : List Phase) : RunAct Unit := do
  let ordered := phases.mergeSort fun a b => a.priority ≤ b.priority
  let context := (← get).context
  lift (Act.bindField "run_id" context.runId)
  log .info "run_starting"
    [("phases", .strs (ordered.map (·.name))), ("dry_run", context.config.dryRun),
      ("backup_enabled", context.config.backupEnabled)]
  andThenAlways (execute crew ordered) do
    lift (Act.unbindField "run_id")
    lift (Act.unbindField "phase")
  let context := (← get).context
  lift (Act.count .runsFinished 1 [("state", context.state.name)])
  let fixed ← lift (Act.ofExcept context.fixedCount)
  log .info "run_finished"
    [("run_id", context.runId), ("state", context.state.name), ("fixed", fixed),
      ("phases_run", context.history.length), ("warnings", context.warnings.length)]

end RunAct

end Remedy

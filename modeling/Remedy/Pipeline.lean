import Remedy.Analysis
import Remedy.Calendar
import Remedy.Fixer.Reference
import Remedy.Lock
import Remedy.Plan
import Remedy.Run.Execution
import Remedy.Run.Summary

/-!
The pipeline: diagnostics are analyzed, planned and remedied, the checks are run, and what is left
is counted again. One run holds the lock of the project from its analysis to its end; however it
ends, the lock is given up and the snapshots of the run are no longer held in memory, while those on
disk stay.
-/

set_option autoImplicit false

namespace Remedy

/-- Everything that the runs of one project have in common. -/
structure Pipeline where
  project : Route
  config : Config
  crew : Crew
  /-- Where diagnostics are collected after a run, if they are. -/
  source : Option (Work Diagnostic.Source) := none
  lockTimeout : Number := seconds 0

/-- What the runs of a pipeline work on. -/
structure Workshop where
  world : World
  store : Store

abbrev PipelineAct := ExceptT Fault (StateM Workshop)

/-- A name for a run that has none. -/
def Act.newRunId : Act String := do
  let w ← get
  set { w with draws := w.draws + 1 }
  let tag := String.ofList (Text.hexPadded 6 (w.draws + 1))
  return s!"{Calendar.compactText w.files.tick}-{tag}"

namespace Pipeline

def lift {α : Type} (act : Act α) : PipelineAct α := fun s =>
  let (outcome, world) := act s.world
  (outcome, { s with world := world })

/-- The store of the project. -/
def store (p : Pipeline) : Store := Store.ofProject p.project p.config.backupDirectory

/-- Analyzes diagnostics and plans what is to be done about them. -/
def prepare (p : Pipeline) (raw : Diagnostic.Source) : Act (List Finding × List Phase) := do
  let found ← analyze (ExtraCodes.ofPairs p.config.codes) raw
  return (found, ← plan p.config.planner found)

/-- Carries out phases in a new context. -/
def execute (p : Pipeline) (phases : List Phase) (runId : String) : PipelineAct RunContext :=
  fun s =>
    let context : RunContext := { runId := runId, project := p.project, config := p.config.run }
    let (outcome, b) := RunAct.run p.crew phases ⟨s.world, s.store, context, 0⟩
    (outcome.map fun _ => b.context, ⟨b.world, b.store⟩)

/-- Counts the diagnostics that are left. If they cannot be collected, that is worth a warning. -/
def remeasure (source : Work Diagnostic.Source) (c : RunContext) :
    Act (RunContext × Option Nat) := do
  match ← attempt (Act.finish source) with
  | .ok raw => return (c, some (← Diagnostic.read raw).length)
  | .error fault =>
    if !fault.isA .resolver then throw fault
    Act.log .warning "remeasure_failed" [("error", fault.message)]
    let text := s!"Could not re-collect diagnostics; final count is estimated: {fault.message}"
    return (c.warn text, none)

/-- What a run does while it holds the lock. -/
def runLocked (p : Pipeline) (raw : Diagnostic.Source) (runId : String) :
    PipelineAct RunSummary := do
  let (found, phases) ← lift (p.prepare raw)
  let act : PipelineAct (RunContext × Option Nat) := do
    let c ← p.execute phases runId
    match p.source with
    | some source =>
      if phases.isEmpty || p.config.run.dryRun then return (c, none)
      lift (remeasure source c)
    | none => return (c, none)
  let (c, final) ← andThenAlways act
    (modify fun s => { s with store := s.store.discard runId })
  lift (Act.ofExcept
    (RunSummary.ofContext c (.int found.length) (final.map fun count => .int count)))

/-- Runs the pipeline over diagnostics, under the given name or a new one. -/
def run (p : Pipeline) (raw : Diagnostic.Source) (runId : Option String) :
    PipelineAct RunSummary := do
  let runId ← match runId.filter fun name => !name.isEmpty with
    | some name => pure name
    | none => lift Act.newRunId
  let lock : RunLock :=
    { RunLock.ofProject (Route.path p.project) p.config.backupDirectory with
      runId := runId, timeout := p.lockTimeout }
  lift (lock.acquire none)
  let s ← andThenAlways (p.runLocked raw runId) (lift lock.release)
  lift (Act.log .info "run_summary"
    [("run_id", runId), ("state", s.state.name), ("initial_errors", s.initialErrorCount),
      ("final_errors", s.finalErrorCount), ("fixed", s.fixedCount)])
  return s

end Pipeline

/-- The checks that the settings describe. -/
def checksOf (configs : List CheckConfig) (project : Route) : Act (List Check) := do
  let checks := configs.map fun c =>
    { name := c.name
      kind := c.kind
      probe := Probe.ofCommand c.kind c.name
        { words := c.command, directory := some (Route.path project), timeout := c.timeout }
      timeout := c.timeout
      required := c.required : Check }
  Act.log .debug "validation_checks_built" [("checks", .strs (checks.map (·.name)))]
  return checks

/-- The pipeline that the settings describe, with the fixers of a registry if one is given. -/
def Pipeline.ofConfig (catalog : Catalog) (project : Route) (config : Config)
    (registry : Option Registry) (lockTimeout : Number) : Act Pipeline := do
  let registry ← match registry with
    | some registry => pure registry
    | none => Registry.ofReferences catalog config.fixers
  return {
    project := project
    config := config
    crew := ⟨registry, ← checksOf config.checks project⟩
    source := some (config.diagnostics.collect project)
    lockTimeout := lockTimeout }

end Remedy

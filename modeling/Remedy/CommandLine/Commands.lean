import Remedy.Analysis.Summary
import Remedy.CommandLine.Arguments
import Remedy.Config.File
import Remedy.Logging
import Remedy.Pipeline

/-!
The commands of the program. A command ends with an exit code and may have a report to print. Faults
of the settings, files that are missing and faults of the program's own kinds end it with the code
one; other faults are passed on.
-/

set_option autoImplicit false

namespace Remedy

/-- How a command ends. -/
structure Outcome where
  code : Nat
  report : Option Json := none
  deriving Repr

namespace Command

def failed : Outcome := { code := 1 }

def configName : String := "error-resolver.yaml"

/-- Logs what the command line itself has to say, in the format that its arguments ask for. -/
def say (a : Arguments) (level : LogLevel) (name : String) (fields : List (String × Json)) :
    Act Unit := do
  let sink := (← get).journal.sink
  modify fun w => { w with journal := { w.journal with
    sink := sink.map fun sink => { sink with format := a.shared.format } } }
  Act.log level name fields
  modify fun w => { w with journal := { w.journal with sink := sink } }

/-- The file of settings: the one that is given, or the one in the project if there is one. -/
def configPath (a : Arguments) : Act (Option Path) := do
  match a.shared.config with
  | some p => return some p
  | none =>
    let candidate := a.shared.project.child configName
    return if ← Act.onFiles (FileAct.isFile candidate) then some candidate else none

/-- The diagnostics to work on: from the standard input, a file, or the command of the settings. -/
def readDiagnostics (config : Config) (project : Route) (standardInput : Text.Bytes)
    (input : Option String) : Act Diagnostic.Source := do
  match input with
  | none | some "" => Act.finish (config.diagnostics.collect project)
  | some "-" => return .bytes standardInput
  | some name =>
    let p := Path.ofString name
    if p.hasNul then throw (.invalid .nul)
    return .bytes (← Act.onFiles (FileAct.read p))

def planJson (p : Phase) : Json :=
  .obj [
    ("name", p.name), ("root_cause", p.cause.name), ("priority", p.priority),
    ("errors", p.errorCount), ("files", p.files.length), ("timeout", p.timeout),
    ("retries", p.retries), ("required", p.required)]

def analyzeOnly (config : Config) (raw : Diagnostic.Source) : Act Outcome := do
  let found ← analyze (ExtraCodes.ofPairs config.codes) raw
  let phases ← plan config.planner found
  return { code := 0
           report := some (.obj [
             ("summary", (AnalysisSummary.ofFindings found).json),
             ("plan", .arr (phases.map planJson))]) }

/-- The settings with what the flags of a run change. -/
def adjusted (config : Config) (o : FixOptions) : Config :=
  let run := config.run
  { config with run :=
    { run with
      dryRun := run.dryRun || o.dryRun
      backupEnabled := run.backupEnabled && !o.noBackup
      validationEnabled := run.validationEnabled && !o.noValidate
      rollbackOnFailure := run.rollbackOnFailure && !o.noRollback } }

def fix (catalog : Catalog) (config : Config) (project : Route) (standardInput : Text.Bytes)
    (o : FixOptions) : Act Outcome := do
  let config := adjusted config o
  let pipeline ← Pipeline.ofConfig catalog project config none o.lockTimeout
  let raw ← readDiagnostics config project standardInput o.input
  let summary ← fun w =>
    let (outcome, s) := pipeline.run raw o.runId ⟨w, pipeline.store⟩
    (outcome, s.world)
  let measured ← Act.ofExcept ((← get).meter.report (Double.ofNat 0))
  let metrics := if o.metrics then [("metrics", measured)] else []
  return { code := summary.exitCode, report := some (.obj (summary.json.fields ++ metrics)) }

def runValidation (a : Arguments) (config : Config) (project : Route) (quick : Bool) :
    Act Outcome := do
  let checks ← checksOf config.checks project
  if quick then
    match ← validateQuickly checks with
    | none =>
      say a .error "no_compile_check_configured" []
      return failed
    | some r =>
      return { code := if r.success then 0 else 1
               report := some (.obj [("name", r.name), ("status", r.status.name),
                 ("message", r.message), ("details", .obj r.details)]) }
  else
    let s ← validate checks
    return { code := if s.overallSuccess then 0 else 1, report := some s.json }

/-- Puts back what a run changed. -/
def undoRun (a : Arguments) (store : Store) (lock : RunLock) (runId key : String) :
    Act Outcome := do
  let act : Act Outcome := do
    let snapshot ← store.load runId key
    match ← attempt (Store.restore snapshot) with
    | .ok restored =>
      return { code := 0
               report := some (.obj [("run_id", runId), ("key", key),
                 ("restored", .strs (restored.map Route.text))]) }
    | .error (.rollback paths total) =>
      say a .error "undo_failed"
        [("run_id", runId), ("error", (Fault.rollback paths total).message),
          ("paths", .strs paths)]
      return { code := RunState.rollbackFailed.exitCode }
    | .error fault => throw fault
  lock.during act

def undo (a : Arguments) (config : Config) (project : Route) (o : UndoOptions) : Act Outcome := do
  let store := Store.ofProject project config.backupDirectory
  let runs ← Act.onFiles store.runs
  if o.list then
    let shown ← runs.mapM fun run => do
      let keys ← Act.onFiles (store.keys run)
      return Json.obj [("run_id", run), ("keys", .strs keys)]
    return { code := 0, report := some (.obj [("runs", .arr shown)]) }
  match (o.runId.filter fun run => !run.isEmpty) <|> runs.head? with
  | none =>
    say a .error "no_backups_found" [("directory", store.root.text)]
    return failed
  | some run =>
    let lock : RunLock :=
      { RunLock.ofProject (Route.path project) config.backupDirectory with runId := s!"undo-{run}" }
    undoRun a store lock run o.key

/-- Carries out a command with its settings. -/
def perform (catalog : Catalog) (a : Arguments) (config : Config) (project : Route)
    (standardInput : Text.Bytes) : Act Outcome :=
  match a.task with
  | .analyze input => do
    analyzeOnly config (← readDiagnostics config project standardInput input)
  | .fix o => fix catalog config project standardInput o
  | .validate quick => runValidation a config project quick
  | .undo o => undo a config project o

/-- Reads the settings, sets up the log as they say, and carries out the command. -/
def load (catalog : Catalog) (a : Arguments) (config : Option Path) (project : Route)
    (standardInput : Text.Bytes) : Act Outcome := do
  let config ← Config.load config
  Act.setUpLog (if a.shared.debug then .debug else config.logging.level)
    (if a.shared.format = .json then .json else config.logging.format)
    (if config.logging.fileEnabled then some config.logging.filePath else none)
  perform catalog a config project standardInput

/-- Carries out the arguments of the program. -/
def run (catalog : Catalog) (a : Arguments) (standardInput : Text.Bytes) : Act Outcome := do
  Act.setUpLog (if a.shared.debug then .debug else .info) a.shared.format none
  let project ← fun w => (w.files.resolve a.shared.project, w)
  let config ← configPath a
  say a .info "starting_error_resolver"
    [("command", a.task.name), ("project", Route.text project),
      ("config_path", Json.ofOption (fun p => .str p.text) config)]
  match ← attempt (load catalog a config project standardInput) with
  | .ok outcome => return outcome
  | .error fault =>
    if fault.isA .fileNotFound then
      say a .error "file_not_found" [("error", fault.message)]
      return failed
    else if fault.isA .value then
      say a .error "configuration_invalid" [("error", fault.message)]
      return failed
    else if fault.isA .resolver then
      say a .error "command_failed"
        [("command", a.task.name), ("error_type", fault.kind.name), ("error", fault.message)]
      return failed
    else throw fault

end Command

end Remedy

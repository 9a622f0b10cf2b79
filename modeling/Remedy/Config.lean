import Remedy.Journal
import Remedy.RootCause

/-!
Settings of the program and their defaults. The settings of a run cap every phase: the ceilings of
the planner, where they are not given, are the timeout and the retries of the run.
-/

set_option autoImplicit false

namespace Remedy

structure RunConfig where
  timeoutSeconds : Number := seconds 600
  maxRetries : Nat := 2
  retryBackoff : Number := seconds 0
  backupEnabled : Bool := true
  validationEnabled : Bool := true
  rollbackOnFailure : Bool := true
  continueOnValidationFailure : Bool := false
  dryRun : Bool := false
  deriving Repr, Inhabited

/-- Settings of the phase of one root cause that differ from the built-in ones. -/
structure PhaseOverride where
  name : Option String := none
  timeout : Option Number := none
  retries : Option Nat := none
  required : Option Bool := none
  deriving Repr, Inhabited

structure PlannerConfig where
  phases : List (String × PhaseOverride) := []
  timeoutCeiling : Option Number := none
  retriesCeiling : Option Nat := none
  deriving Repr, Inhabited

inductive CheckKind where
  | compile
  | lint
  | build
  | test
  deriving DecidableEq, Repr, Inhabited

namespace CheckKind

def all : List CheckKind := [.compile, .lint, .build, .test]

def name : CheckKind → String
  | .compile => "compile"
  | .lint => "lint"
  | .build => "build"
  | .test => "test"

def ofName? (name : String) : Option CheckKind := all.find? (·.name == name)

end CheckKind

/-- A check that runs a command. -/
structure CheckConfig where
  name : String
  kind : CheckKind
  command : List String
  timeout : Number := seconds 60
  required : Bool := false
  deriving Repr, Inhabited

def defaultChecks : List CheckConfig := [
  { name := "TypeScript Compilation"
    kind := .compile
    command := ["npx", "tsc", "--noEmit", "--skipLibCheck"]
    timeout := seconds 60
    required := true },
  { name := "ESLint Check"
    kind := .lint
    command := ["npx", "eslint", "src", "--ext", ".ts,.tsx", "--max-warnings", "0"]
    timeout := seconds 30 },
  { name := "Build Check"
    kind := .build
    command := ["npm", "run", "build"]
    timeout := seconds 120 }]

/-- How the diagnostics of a project are collected. -/
structure DiagnosticsConfig where
  command : List String := ["npx", "tsc", "--noEmit", "--skipLibCheck"]
  timeout : Number := seconds 120
  deriving Repr, Inhabited

structure LoggingConfig where
  level : LogLevel := .info
  format : LogFormat := .console
  fileEnabled : Bool := false
  filePath : Path := Path.ofString "error-resolver.log"
  deriving Repr, Inhabited

structure Config where
  run : RunConfig := {}
  planner : PlannerConfig := {}
  codes : List (String × RootCause) := []
  fixers : List (String × String) := []
  checks : List CheckConfig := defaultChecks
  diagnostics : DiagnosticsConfig := {}
  backupDirectory : String := ".error-fix-backups"
  logging : LoggingConfig := {}
  deriving Repr, Inhabited

namespace Config

/-- Lets the limits of the run cap the phases where the planner has no ceilings of its own. -/
def capped (c : Config) : Config :=
  { c with planner :=
    { c.planner with
      timeoutCeiling := some (c.planner.timeoutCeiling.getD c.run.timeoutSeconds)
      retriesCeiling := some (c.planner.retriesCeiling.getD c.run.maxRetries) } }

/-- The first thing in which two parts of the settings do not fit together. -/
def conflict? (c : Config) : Option Invalid :=
  let names := c.checks.map (·.name)
  let repeated := names.eraseDups.filter fun name => 1 < names.count name
  if !repeated.isEmpty then
    some (.duplicateChecks (repeated.mergeSort fun a b => !decide (b < a)))
  else if c.run.validationEnabled && c.checks.isEmpty then some .noChecks
  else none

end Config

namespace RunConfig

def json (c : RunConfig) : Json :=
  .obj [
    ("timeout_seconds", c.timeoutSeconds),
    ("max_retries", c.maxRetries),
    ("retry_backoff", c.retryBackoff),
    ("backup_enabled", c.backupEnabled),
    ("validation_enabled", c.validationEnabled),
    ("rollback_on_failure", c.rollbackOnFailure),
    ("continue_on_validation_failure", c.continueOnValidationFailure),
    ("dry_run", c.dryRun)]

end RunConfig

def PhaseOverride.json (o : PhaseOverride) : Json :=
  .obj [
    ("name", Json.ofOption .str o.name),
    ("timeout", Json.ofOption .num o.timeout),
    ("retries", Json.ofOption (fun n => (n : Json)) o.retries),
    ("required", Json.ofOption .bool o.required)]

def PlannerConfig.json (c : PlannerConfig) : Json :=
  .obj [
    ("phases", .obj (c.phases.map fun p => (p.1, p.2.json))),
    ("timeout_ceiling", Json.ofOption .num c.timeoutCeiling),
    ("retries_ceiling", Json.ofOption (fun n => (n : Json)) c.retriesCeiling)]

def CheckConfig.json (c : CheckConfig) : Json :=
  .obj [
    ("name", c.name),
    ("kind", c.kind.name),
    ("command", .strs c.command),
    ("timeout", c.timeout),
    ("required", c.required)]

def Config.json (c : Config) : Json :=
  .obj [
    ("run", c.run.json),
    ("planner", c.planner.json),
    ("classification", .obj [("codes", .obj (c.codes.map fun p => (p.1, (p.2.name : Json))))]),
    ("fixers", .obj (c.fixers.map fun p => (p.1, (p.2 : Json)))),
    ("validation", .obj [("checks", .arr (c.checks.map CheckConfig.json))]),
    ("diagnostics", .obj [
      ("command", .strs c.diagnostics.command), ("timeout", c.diagnostics.timeout)]),
    ("backup", .obj [("directory", c.backupDirectory)]),
    ("logging", .obj [
      ("level", c.logging.level.upperName),
      ("format", c.logging.format.name),
      ("file", .obj [
        ("enabled", c.logging.fileEnabled), ("path", c.logging.filePath.text)])])]

end Remedy

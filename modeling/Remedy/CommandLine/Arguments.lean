import Remedy.CommandLine.Flag
import Remedy.Number.Loose
import Remedy.Backup.Store

/-!
The arguments of the program: flags for all commands, the name of a command, and the flags of that
command. Arguments that are of no use are refused after everything else has been looked at.
-/

set_option autoImplicit false

namespace Remedy

structure FixOptions where
  input : Option String := none
  dryRun : Bool := false
  noBackup : Bool := false
  noValidate : Bool := false
  noRollback : Bool := false
  runId : Option String := none
  lockTimeout : Number := seconds 0
  metrics : Bool := false
  deriving Repr

structure UndoOptions where
  runId : Option String := none
  key : String := runKey
  list : Bool := false
  deriving Repr

inductive Task where
  | analyze (input : Option String)
  | fix (o : FixOptions)
  | validate (quick : Bool)
  | undo (o : UndoOptions)
  deriving Repr

def Task.name : Task → String
  | .analyze _ => "analyze"
  | .fix _ => "fix"
  | .validate _ => "validate"
  | .undo _ => "undo"

/-- The flags that all commands share. -/
structure SharedOptions where
  project : Path
  config : Option Path := none
  debug : Bool := false
  format : LogFormat := .console
  deriving Repr

structure Arguments where
  shared : SharedOptions
  task : Task
  deriving Repr

namespace Arguments

def programName : String := "error-resolver"
def versionText : String := "0.1.0"

def help {σ : Type} (program : String) : Flag σ :=
  ⟨["-h", "--help"], .ending s!"usage: {program} [options]\n"⟩

/-- A flag that keeps its value as it is. -/
def keeping {σ : Type} (names : List String) (set : String → σ → σ) : Flag σ :=
  ⟨names, .value fun value s => .ok (set value s)⟩

def sharedFlags : List (Flag SharedOptions) := [
  help programName,
  ⟨["--version"], .ending s!"{programName} {versionText}\n"⟩,
  keeping ["-p", "--project"] fun v s => { s with project := Path.ofString v },
  keeping ["-c", "--config"] fun v s => { s with config := some (Path.ofString v) },
  ⟨["-d", "--debug"], .alone fun s => { s with debug := true }⟩,
  ⟨["--format"], .value fun v s =>
    match [LogFormat.json, .console].find? fun f => f.name == v with
    | some f => .ok { s with format := f }
    | none => .error (Flag.strangeChoice v ["json", "console"])⟩]

def analyzeFlags (program : String) : List (Flag (Option String)) := [
  help program,
  keeping ["-i", "--input"] fun v _ => some v]

def fixFlags (program : String) : List (Flag FixOptions) := [
  help program,
  keeping ["-i", "--input"] fun v s => { s with input := some v },
  ⟨["--dry-run"], .alone fun s => { s with dryRun := true }⟩,
  ⟨["--no-backup"], .alone fun s => { s with noBackup := true }⟩,
  ⟨["--no-validate"], .alone fun s => { s with noValidate := true }⟩,
  ⟨["--no-rollback"], .alone fun s => { s with noRollback := true }⟩,
  keeping ["--run-id"] fun v s => { s with runId := some v },
  ⟨["--lock-timeout"], .value fun v s =>
    match Loose.real? v with
    | some x => .ok { s with lockTimeout := .real x }
    | none => .error s!"invalid float value: {Text.quoted v}"⟩,
  ⟨["--metrics"], .alone fun s => { s with metrics := true }⟩]

def validateFlags (program : String) : List (Flag Bool) := [
  help program,
  ⟨["--quick"], .alone fun _ => true⟩]

def undoFlags (program : String) : List (Flag UndoOptions) := [
  help program,
  keeping ["--run-id"] fun v s => { s with runId := some v },
  keeping ["--key"] fun v s => { s with key := v },
  ⟨["--list"], .alone fun s => { s with list := true }⟩]

def taskNames : List String := ["analyze", "fix", "validate", "undo"]

/-- Reads the arguments of one command; what cannot be used comes back too. -/
def readWith {σ : Type} (program : String) (flags : List (Flag σ)) (first : σ) (make : σ → Task)
    (rest : List String) : Except Usage (Task × List String) :=
  (Flag.run program flags false first rest).map fun (s, extras, _) => (make s, extras)

/-- Reads the name of a command and its arguments. -/
def readTask (name : String) (rest : List String) : Except Usage (Task × List String) :=
  let program := s!"{programName} {name}"
  match name with
  | "analyze" => readWith program (analyzeFlags program) none .analyze rest
  | "fix" => readWith program (fixFlags program) {} .fix rest
  | "validate" => readWith program (validateFlags program) false .validate rest
  | "undo" => readWith program (undoFlags program) {} .undo rest
  | _ =>
    .error (.refused programName s!"argument command: {Flag.strangeChoice name taskNames}")

/-- Reads the arguments of the program, which is run in a directory. -/
def read (directory : Path) (arguments : List String) : Except Usage Arguments := do
  let (shared, extras, rest) ←
    Flag.run programName sharedFlags true { project := directory } arguments
  match rest with
  | [] => .error (.refused programName "the following arguments are required: command")
  | name :: rest =>
    let (task, more) ← readTask name rest
    match extras ++ more with
    | [] => return ⟨shared, task⟩
    | strange =>
      .error (.refused programName ("unrecognized arguments: " ++ String.intercalate " " strange))

end Arguments

def Task.json : Task → List (String × Json)
  | .analyze input => [("input", Json.ofOption .str input)]
  | .fix o => [
      ("input", Json.ofOption .str o.input), ("dry_run", o.dryRun), ("no_backup", o.noBackup),
      ("no_validate", o.noValidate), ("no_rollback", o.noRollback),
      ("run_id", Json.ofOption .str o.runId), ("lock_timeout", o.lockTimeout),
      ("metrics", o.metrics)]
  | .validate quick => [("quick", quick)]
  | .undo o => [("run_id", Json.ofOption .str o.runId), ("key", o.key), ("list", o.list)]

def Arguments.json (a : Arguments) : Json :=
  .obj ([("project", (a.shared.project.text : Json)),
    ("config", Json.ofOption (fun p => .str p.text) a.shared.config),
    ("debug", a.shared.debug), ("format", a.shared.format.name),
    ("command", a.task.name)] ++ a.task.json)

end Remedy

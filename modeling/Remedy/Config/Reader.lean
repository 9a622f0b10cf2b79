import Remedy.Config
import Remedy.Config.Checked
import Remedy.Text.Word

/-!
Reading of the settings of the program. Sections ignore what they do not know, while an unknown
section is a problem; problems come in the order of the settings, unknown sections last.
-/

set_option autoImplicit false

namespace Remedy

open Reader

def RunConfig.reader : Reader RunConfig := record fun fs =>
  RunConfig.mk
    <$> field fs "timeout_seconds" positive (seconds 600)
    <*> field fs "max_retries" (count (some 10)) 2
    <*> field fs "retry_backoff" (upTo (seconds 60)) (seconds 0)
    <*> field fs "backup_enabled" truth true
    <*> field fs "validation_enabled" truth true
    <*> field fs "rollback_on_failure" truth true
    <*> field fs "continue_on_validation_failure" truth false
    <*> field fs "dry_run" truth false

def PhaseOverride.reader : Reader PhaseOverride := record fun fs =>
  PhaseOverride.mk
    <$> field fs "name" (optional text) none
    <*> field fs "timeout" (optional positive) none
    <*> field fs "retries" (optional (count (some 10))) none
    <*> field fs "required" (optional truth) none

/-- The names of the root causes, as messages list them. -/
def causeNames : List String := RootCause.all.map (·.name)

def strangeCause? (overrides : List (String × PhaseOverride)) : Option String :=
  (overrides.find? fun o => !causeNames.contains o.1).map fun o =>
    s!"Unknown root cause {Text.quoted o.1}. Expected one of: " ++
      String.intercalate ", " causeNames

def PlannerConfig.reader : Reader PlannerConfig := record fun fs =>
  PlannerConfig.mk
    <$> field fs "phases" (fun s => (map PhaseOverride.reader s).ensure strangeCause?) []
    <*> field fs "timeout_ceiling" (optional positive) none
    <*> field fs "retries_ceiling" (optional (count none)) none

/-- Whether the first argument of a command is blank or missing. -/
def blankCommand? (command : List String) : Option String :=
  if command.head?.any fun first => !(Text.strip first.toList).isEmpty then none
  else some "Check command must be a non-empty list of arguments"

def CheckConfig.reader : Reader CheckConfig := record fun fs =>
  CheckConfig.mk
    <$> demanded fs "name" text
    <*> demanded fs "kind" (word CheckKind.ofName?)
    <*> demanded fs "command" (fun s => (list text s).ensure blankCommand?)
    <*> field fs "timeout" positive (seconds 60)
    <*> field fs "required" truth false

def checksReader : Reader (List CheckConfig) := record fun fs =>
  field fs "checks" (list CheckConfig.reader) defaultChecks

def codesReader : Reader (List (String × RootCause)) := record fun fs =>
  field fs "codes" (map (word RootCause.ofName?)) []

def DiagnosticsConfig.reader : Reader DiagnosticsConfig := record fun fs =>
  DiagnosticsConfig.mk
    <$> field fs "command" (list text) ({} : DiagnosticsConfig).command
    <*> field fs "timeout" positive (seconds 120)

/-- Whether a directory lies outside of the project as it is written. -/
def strayDirectory? (directory : String) : Option String :=
  let p := Path.ofString directory
  if p.isAbsolute || p.names.contains ".." then
    some s!"Backup directory must be relative to the project: {directory}"
  else none

/-- The directory of the backups. -/
def directoryReader : Reader String := record fun fs =>
  field fs "directory" (fun s => (text s).ensure strayDirectory?) ({} : Config).backupDirectory

def levelOf? (name : String) : Option LogLevel := LogLevel.all.find? fun l => l.upperName == name

def formatOf? (name : String) : Option LogFormat := [.json, .console].find? fun f => f.name == name

def LoggingConfig.reader : Reader LoggingConfig := record fun fs =>
  let defaults : LoggingConfig := {}
  let file : Reader (Bool × Path) := record fun fs =>
    Prod.mk
      <$> field fs "enabled" truth defaults.fileEnabled
      <*> field fs "path" path defaults.filePath
  (fun level format file => LoggingConfig.mk level format file.1 file.2)
    <$> field fs "level" (word levelOf?) defaults.level
    <*> field fs "format" (word formatOf?) defaults.format
    <*> field fs "file" file (defaults.fileEnabled, defaults.filePath)

def isWordStart (c : Char) : Bool :=
  ('a' ≤ c && c ≤ 'z') || ('A' ≤ c && c ≤ 'Z') || c == '_'

/-- Whether a text is a dotted name, as it stands on either side of a colon. -/
def isDottedName (cs : List Char) : Bool :=
  cs.head?.any isWordStart && cs.all fun c => Text.isWord c || c == '.'

/-- Whether a text names a module and something in it; a line feed at the end does not count. -/
def isReference (s : String) : Bool :=
  match Text.pieces ':' s.toList with
  | [module, name] =>
    let name := if name.getLast? = some '\n' then name.dropLast else name
    isDottedName module && isDottedName name
  | _ => false

def badFixer? (fixers : List (String × String)) : Option String :=
  fixers.findSome? fun f =>
    if !causeNames.contains f.1 then some s!"Unknown root cause for fixer: {f.1}"
    else if !isReference f.2 then
      some s!"Invalid fixer reference for {f.1}: {f.2}. Expected: module:attr"
    else none

def sectionNames : List String :=
  ["run", "planner", "classification", "fixers", "validation", "diagnostics", "backup", "logging"]

/-- The unknown sections. -/
def strangeSections (entries : List (Setting × Setting)) : Checked Unit :=
  let isKnown (key : Setting) : Bool := key.text?.any sectionNames.contains
  match entries.filter fun e => !isKnown e.1 with
  | [] => .good ()
  | strange => .bad (strange.map fun e => ⟨[e.1.step], "extra_forbidden", none⟩)

def Config.reader : Reader Config := record fun fs =>
  let defaults : Config := {}
  (fun run planner codes fixers checks diagnostics directory logging _ =>
      Config.capped ⟨run, planner, codes, fixers, checks, diagnostics, directory, logging⟩)
    <$> field fs "run" RunConfig.reader {}
    <*> field fs "planner" PlannerConfig.reader {}
    <*> field fs "classification" codesReader defaults.codes
    <*> field fs "fixers" (fun s => (map text s).ensure badFixer?) []
    <*> field fs "validation" checksReader defaults.checks
    <*> field fs "diagnostics" DiagnosticsConfig.reader {}
    <*> field fs "backup" directoryReader defaults.backupDirectory
    <*> field fs "logging" LoggingConfig.reader {}
    <*> strangeSections fs

/-- What a reader makes of a value, as a whole of the given title. -/
def Reader.run {α : Type} (read : Reader α) (title : String) (s : Setting) : Except Fault α :=
  match read s with
  | .good value => .ok value
  | .bad problems => .error (.settings title problems)

end Remedy

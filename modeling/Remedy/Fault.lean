import Remedy.FileTree
import Remedy.Json.Printer
import Remedy.Json.Reader
import Remedy.RootCause
import Remedy.Run.State

/-!
What can go wrong, by cause. Each cause carries what its message names; `Fault.message` words it and
`Fault.kind` sorts it. Kinds form a tree: a handler for one kind also takes what lies below it.
-/

set_option autoImplicit false

namespace Remedy

inductive FaultKind where
  | generic
  | resolver
  | config
  | backup
  | rollback
  | operationTimeout
  | phaseTimeout
  | fixer
  | fixerNotFound
  | validationCheck
  | runLocked
  | invalidTransition
  | command
  | commandNotFound
  | commandTimeout
  | value
  | decoding
  | reading
  | settings
  | settingsValue
  | lookup
  | key
  | index
  | type
  | attribute
  | overflow
  | runtime
  | os
  | timeout
  | fileNotFound
  | fileExists
  | notADirectory
  | isADirectory
  | markup
  | cancelled
  deriving DecidableEq, Repr, Inhabited

namespace FaultKind

def name : FaultKind → String
  | .generic => "Exception"
  | .resolver => "ResolverError"
  | .config => "ConfigError"
  | .backup => "BackupError"
  | .rollback => "RollbackError"
  | .operationTimeout => "OperationTimeoutError"
  | .phaseTimeout => "PhaseTimeoutError"
  | .fixer => "FixerError"
  | .fixerNotFound => "FixerNotFoundError"
  | .validationCheck => "ValidationCheckError"
  | .runLocked => "RunLockedError"
  | .invalidTransition => "InvalidTransitionError"
  | .command => "CommandError"
  | .commandNotFound => "CommandNotFoundError"
  | .commandTimeout => "CommandTimeoutError"
  | .value => "ValueError"
  | .decoding => "UnicodeDecodeError"
  | .reading => "JSONDecodeError"
  | .settings => "ValidationError"
  | .settingsValue => "SettingsError"
  | .lookup => "LookupError"
  | .key => "KeyError"
  | .index => "IndexError"
  | .type => "TypeError"
  | .attribute => "AttributeError"
  | .overflow => "OverflowError"
  | .runtime => "RuntimeError"
  | .os => "OSError"
  | .timeout => "TimeoutError"
  | .fileNotFound => "FileNotFoundError"
  | .fileExists => "FileExistsError"
  | .notADirectory => "NotADirectoryError"
  | .isADirectory => "IsADirectoryError"
  | .markup => "YAMLError"
  | .cancelled => "CancelledError"

def all : List FaultKind :=
  [.generic, .resolver, .config, .backup, .rollback, .operationTimeout, .phaseTimeout, .fixer,
    .fixerNotFound, .validationCheck, .runLocked, .invalidTransition, .command, .commandNotFound,
    .commandTimeout, .value, .decoding, .reading, .settings,
    .settingsValue, .lookup, .key, .index, .type,
    .attribute, .overflow, .runtime, .os, .timeout, .fileNotFound, .fileExists, .notADirectory,
    .isADirectory, .markup, .cancelled]

def ofName? (name : String) : Option FaultKind := all.find? (·.name == name)

/-- The kinds above a kind, itself included, the nearest first. -/
def lineage : FaultKind → List FaultKind
  | .generic => [.generic]
  | .cancelled => [.cancelled]
  | .phaseTimeout => [.phaseTimeout, .operationTimeout, .resolver, .generic]
  | .commandNotFound => [.commandNotFound, .command, .resolver, .generic]
  | .commandTimeout => [.commandTimeout, .command, .resolver, .generic]
  | .config => [.config, .resolver, .generic]
  | .backup => [.backup, .resolver, .generic]
  | .rollback => [.rollback, .resolver, .generic]
  | .operationTimeout => [.operationTimeout, .resolver, .generic]
  | .fixer => [.fixer, .resolver, .generic]
  | .fixerNotFound => [.fixerNotFound, .resolver, .generic]
  | .validationCheck => [.validationCheck, .resolver, .generic]
  | .runLocked => [.runLocked, .resolver, .generic]
  | .invalidTransition => [.invalidTransition, .resolver, .generic]
  | .command => [.command, .resolver, .generic]
  | .decoding => [.decoding, .value, .generic]
  | .reading => [.reading, .value, .generic]
  | .settings => [.settings, .value, .generic]
  | .settingsValue => [.settingsValue, .value, .generic]
  | .key => [.key, .lookup, .generic]
  | .index => [.index, .lookup, .generic]
  | .timeout => [.timeout, .os, .generic]
  | .fileNotFound => [.fileNotFound, .os, .generic]
  | .fileExists => [.fileExists, .os, .generic]
  | .notADirectory => [.notADirectory, .os, .generic]
  | .isADirectory => [.isADirectory, .os, .generic]
  | kind => [kind, .generic]

/-- Whether a handler for `above` takes a fault of this kind. -/
def isA (kind above : FaultKind) : Bool := kind.lineage.contains above

end FaultKind

/-- A refusal of the file system: what was asked of which path, and for a move also where to. -/
structure FileError where
  errno : Errno
  path : String
  target : Option String := none
  deriving DecidableEq, Repr

def FileError.message (e : FileError) : String :=
  s!"[Errno {e.errno.number}] {e.errno.message}: {Text.quoted e.path}" ++
    match e.target with
    | none => ""
    | some target => " -> " ++ Text.quoted target

def FileError.kind (e : FileError) : FaultKind :=
  match e.errno with
  | .notFound => .fileNotFound
  | .exists => .fileExists
  | .notDirectory => .notADirectory
  | .isDirectory => .isADirectory
  | .nameTooLong | .linkLoop => .os

inductive BackupFault where
  | invalidName (label value : String)
  | duplicate (run key : String)
  | occupied (location : String)
  | unreadable (path : String) (cause : FileError)
  | unwritable (location : String) (cause : FileError)
  | absent (run key : String)
  | damagedManifest (path reason : String)
  | missingFile (path : String) (cause : FileError)
  | corruptFile (path : String)
  deriving DecidableEq, Repr

def BackupFault.message : BackupFault → String
  | .invalidName label value => s!"Invalid backup {label}: {Text.quoted value}"
  | .duplicate run key => s!"Snapshot already exists for run {run} key {key}"
  | .occupied location => s!"Backup directory already exists: {location}"
  | .unreadable path cause => s!"Cannot read {path}: {cause.message}"
  | .unwritable location cause => s!"Failed to write backup to {location}: {cause.message}"
  | .absent run key => s!"No backup found for run {run} key {key}"
  | .damagedManifest path reason => s!"Unreadable manifest {path}: {reason}"
  | .missingFile path cause => s!"Missing backup file for {path}: {cause.message}"
  | .corruptFile path => s!"Backup file for {path} is corrupt"

/-- How an attempt of a fixer failed, other than by missing its deadline. -/
inductive FixerFault where
  | cancelled (phase : String)
  | raised (phase : String) (kind : FaultKind) (text : String)
  | reported (phase text : String)
  | strange (phase kind : String)
  | negative (phase : String)
  deriving DecidableEq, Repr

def FixerFault.message : FixerFault → String
  | .cancelled phase => s!"{phase} fixer was cancelled"
  | .raised phase kind text => s!"{phase} fixer raised {kind.name}: {text}"
  | .reported phase text => s!"{phase} fixer reported failure: {text}"
  | .strange phase kind => s!"{phase} fixer returned {kind}; expected FixOutcome or int"
  | .negative phase => s!"{phase} fixer reported a negative fixed count"

inductive ConfigFault where
  | malformedReference (reference : String)
  | missingModule (name reason : String)
  | missingAttribute (reference reason : String)
  | notAFixer (reference : String)
  | notBuildable (reference reason : String)
  | refused (reason : String)
  deriving DecidableEq, Repr

def ConfigFault.message : ConfigFault → String
  | .malformedReference reference =>
    s!"Invalid fixer reference: {reference}. Expected: module:attr"
  | .missingModule name reason => s!"Cannot import fixer module {name}: {reason}"
  | .missingAttribute reference reason => s!"Fixer {reference} not found: {reason}"
  | .notAFixer reference =>
    s!"{reference} is not a fixer: expected an async 'fix' method or coroutine function"
  | .notBuildable reference reason => s!"Cannot instantiate fixer {reference}: {reason}"
  | .refused reason => reason

inductive CommandFault where
  | shellText
  | empty
  | holdsNul
  | notFound (executable : String)
  | timedOut (timeout : Number) (command : List String)
  | failed (code : Int) (output : String)
  deriving DecidableEq, Repr

def CommandFault.message : CommandFault → String
  | .shellText => "Command must be an argument list, not a shell string"
  | .empty => "Command must not be empty"
  | .holdsNul => "Command arguments must not contain NUL bytes"
  | .notFound executable => s!"Executable not found: {executable}"
  | .timedOut timeout command =>
    s!"Command timed out after {timeout.text}s: {Text.quotedList command}"
  | .failed code output => s!"Command failed with exit code {code}: {output}"

def CommandFault.kind : CommandFault → FaultKind
  | .notFound _ => .commandNotFound
  | .timedOut _ _ => .commandTimeout
  | _ => .command

/-- Values that a rule of the program excludes. -/
inductive Invalid where
  | member (value : Json) (family : String)
  | longNumber (digits : Nat)
  | nul
  | unsetVariable (name : String)
  | duplicateChecks (names : List String)
  | noChecks
  | rootNotMapping (path : String)
  | emptyPhase (name : String)
  | phaseTimeout (name : String)
  | phaseRetries (name : String)
  | registered (cause : RootCause)
  | noFixMethod (cause : RootCause)
  | decrease
  | attempts (count : Int)
  | date (text : String)
  | outOfRange (text : String)
  | numeral (base : Nat) (text : String)
  | fraction (text : String)
  | pairLength (index length : Nat)
  deriving Repr

def Invalid.message : Invalid → String
  | .member value family => s!"{value.shownWithin} is not a valid {family}"
  | .longNumber digits => Json.longNumberMessage digits
  | .nul => "embedded null byte"
  | .unsetVariable name => s!"Environment variable {name} not found"
  | .duplicateChecks names => "Duplicate validation check names: " ++ String.intercalate ", " names
  | .noChecks => "Validation is enabled but no validation checks are configured"
  | .rootNotMapping path => s!"Configuration root must be a mapping: {path}"
  | .emptyPhase name => s!"Phase {Text.quoted name} has no errors to address"
  | .phaseTimeout name => s!"Phase {Text.quoted name} timeout must be positive"
  | .phaseRetries name => s!"Phase {Text.quoted name} retries must not be negative"
  | .registered cause => s!"Fixer for root cause '{cause.name}' already registered"
  | .noFixMethod cause => s!"Object registered for '{cause.name}' has no fix method"
  | .decrease => "Counter can only increase"
  | .attempts count => s!"max_attempts must be at least 1, got {count}"
  | .date text => s!"Invalid isoformat string: {Text.quoted text}"
  | .outOfRange text => text
  | .numeral base text =>
    s!"invalid literal for int() with base {base}: " ++
      String.ofList ((Text.quoted text).toList.take 200)
  | .fraction text => s!"could not convert string to float: {Text.quoted text}"
  | .pairLength index length =>
    s!"dictionary update sequence element #{index} has length {length}; 2 is required"

/-- A value used as what it is not: a field that is not there, or a wrong kind of value. -/
inductive Misuse where
  | missingField (name : String)
  | wrongType
  | noMember
  deriving DecidableEq, Repr

/-- One finding about a value that should have been a configuration. -/
structure Problem where
  place : List Json
  rule : String
  reason : Option String := none
  deriving Repr

/-- A number that is out of range. -/
inductive Overflow where
  /-- An integer is used where a fraction is needed. -/
  | conversion
  /-- The quotient of two integers. -/
  | quotient
  /-- A time without end is to be counted in milliseconds. -/
  | endless
  /-- A time is longer than can be waited for at once. -/
  | wait
  /-- A time is longer than a clock can show. -/
  | clock
  deriving DecidableEq, Repr

def Overflow.message : Overflow → String
  | .conversion => "int too large to convert to float"
  | .quotient => "integer division result too large for a float"
  | .endless => "cannot convert float infinity to integer"
  | .wait => "timeout is too large"
  | .clock => "timestamp too large to convert to C _PyTime_t"

inductive Fault where
  | file (cause : FileError)
  | backup (cause : BackupFault)
  | rollback (failed : List String) (total : Nat)
  | operationTimeout (text : String) (timeout : Number)
  | phaseTimeout (text : String) (timeout : Number)
  | fixer (cause : FixerFault)
  | noFixer (cause : RootCause)
  | unknownCause (name : String)
  | config (cause : ConfigFault)
  | check (text : String)
  | locked (path holder : String)
  | transition (source target : RunState)
  | command (cause : CommandFault)
  | invalid (cause : Invalid)
  | undecodable (cause : Text.Utf8Error)
  | misuse (cause : Misuse)
  | overflow (cause : Overflow)
  | linkLoop (path : String)
  | markup
  | missingConfig (path : String)
  | settings (title : String) (problems : List Problem)
  | cancelled (text : String)
  | raised (kind : FaultKind) (text : String)
  deriving Repr

namespace Fault

def kind : Fault → FaultKind
  | .file cause => cause.kind
  | .backup _ => .backup
  | .rollback _ _ => .rollback
  | .operationTimeout _ _ => .operationTimeout
  | .phaseTimeout _ _ => .phaseTimeout
  | .fixer _ => .fixer
  | .noFixer _ => .fixerNotFound
  | .unknownCause _ => .fixerNotFound
  | .config _ => .config
  | .check _ => .validationCheck
  | .locked _ _ => .runLocked
  | .transition _ _ => .invalidTransition
  | .command cause => cause.kind
  | .invalid _ => .value
  | .undecodable _ => .decoding
  | .misuse (.missingField _) => .key
  | .misuse .wrongType => .type
  | .misuse .noMember => .attribute
  | .overflow _ => .overflow
  | .linkLoop _ => .runtime
  | .markup => .markup
  | .missingConfig _ => .fileNotFound
  | .settings _ _ => .settings
  | .cancelled _ => .cancelled
  | .raised kind _ => kind

def message : Fault → String
  | .file cause => cause.message
  | .backup cause => cause.message
  | .rollback failed total => s!"Failed to restore {failed.length} of {total} files"
  | .operationTimeout text _ => text
  | .phaseTimeout text _ => text
  | .fixer cause => cause.message
  | .noFixer cause => s!"No fixer registered for root cause: {cause.name}"
  | .unknownCause name => s!"Unknown root cause: {name}"
  | .config cause => cause.message
  | .check text => text
  | .locked path holder =>
    s!"Another run holds {path}" ++ if holder.isEmpty then "" else s!" ({holder})"
  | .transition source target => s!"Illegal run state transition: {source.name} -> {target.name}"
  | .command cause => cause.message
  | .invalid cause => cause.message
  | .undecodable cause => cause.message
  | .misuse (.missingField name) => Text.quoted name
  | .misuse .wrongType => "wrong type"
  | .misuse .noMember => "no such member"
  | .overflow cause => cause.message
  | .linkLoop path => s!"Symlink loop from {Text.quoted path}"
  | .markup => "malformed document"
  | .missingConfig path => s!"Configuration file not found: {path}"
  | .settings title problems =>
    s!"{problems.length} validation error" ++ (if problems.length = 1 then "" else "s") ++
      s!" for {title}"
  | .cancelled text => text
  | .raised .key text => Text.quoted text
  | .raised _ text => text

/-- Whether a handler for faults of `above` takes this one. -/
def isA (fault : Fault) (above : FaultKind) : Bool := fault.kind.isA above

end Fault

end Remedy

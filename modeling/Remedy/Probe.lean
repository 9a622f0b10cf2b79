import Remedy.Command
import Remedy.Config
import Remedy.Diagnostic.Reader
import Remedy.Distinct

/-!
Probes: work that says whether a project passes a check. A probe either reports, or is a command
whose output is still to be read: the output of a compiler is read for diagnostics, that of a linter
for the numbers that it gives, and for the rest only the return code counts.
-/

set_option autoImplicit false

namespace Remedy

structure ProbeReport where
  success : Bool
  message : Json
  details : Json := .obj []
  deriving Repr

inductive ProbeReply where
  | report (r : ProbeReport)
  /-- The output of a command that belongs to a check of a kind and a name. -/
  | output (kind : CheckKind) (name : String) (r : CommandResult)
  /-- Something that is no report. -/
  | other (kind : String)
  deriving Repr

abbrev Probe := Work ProbeReply

namespace CommandResult

/-- How much of an output a report shows, from its end. -/
def shownOutput : Nat := 1000

def tail (r : CommandResult) : String :=
  let cs := r.output.toList
  String.ofList (cs.drop (cs.length - shownOutput))

def failureText (r : CommandResult) (name : String) : String :=
  s!"{name} failed with exit code {r.returnCode}"

/-- The most frequent codes with their counts, codes of one count in the order of occurrence. -/
def topCodes (codes : List String) : List (String × Nat) :=
  let counts := (distinct codes).map fun code => (code, codes.count code)
  (counts.mergeSort fun a b => b.2 ≤ a.2).take 5

/-- What the output of a compiler says. -/
def compileReport (r : CommandResult) (name : String) : Act ProbeReport := do
  let found ← Diagnostic.read (.text r.output)
  if found.isEmpty then
    if r.success then return ⟨true, s!"{name} passed", .obj [("error_count", 0)]⟩
    return ⟨false, r.failureText name, .obj [("error_count", 0), ("output", r.tail)]⟩
  return ⟨false, s!"{name} failed with {found.length} errors", .obj [
    ("error_count", found.length),
    ("top_error_codes", .arr ((topCodes (found.map (·.code))).map fun c => .arr [c.1, c.2])),
    ("sample_errors", .strs ((found.take 3).map (·.raw)))]⟩

/-- The first number that stands before a word, zero if there is none. -/
def numberBefore (word : List Char) : (fuel : Nat) → List Char → Except Invalid Nat
  | 0, _ => .ok 0
  | _, [] => .ok 0
  | fuel + 1, c :: rest =>
    if Text.isDigit c then
      let digits := (c :: rest).takeWhile Text.isDigit
      let after := (c :: rest).dropWhile Text.isDigit
      if Text.startsWith (' ' :: word) after then Diagnostic.position digits
      else numberBefore word fuel after
    else numberBefore word fuel rest

/-- What the output of a linter says. -/
def lintReport (r : CommandResult) (name : String) : Except Invalid ProbeReport := do
  let output := r.output.toList
  let number (word : String) := numberBefore word.toList (output.length + 1) output
  let problems ← number "problem"
  let details : Json :=
    .obj [("problems", problems), ("errors", ← number "error"), ("warnings", ← number "warning")]
  if r.success then return ⟨true, s!"{name} passed", details⟩
  return ⟨false, s!"{name} found {problems} problems", details⟩

/-- What the return code says. -/
def plainReport (r : CommandResult) (name : String) : ProbeReport :=
  if r.success then ⟨true, s!"{name} passed", .obj []⟩
  else ⟨false, r.failureText name, .obj [("output", r.tail)]⟩

/-- What the output of a command says about a check of a kind. -/
def reportFor (r : CommandResult) (kind : CheckKind) (name : String) : Act ProbeReport := do
  match kind with
  | .compile => r.compileReport name
  | .lint =>
    match r.lintReport name with
    | .ok report => return report
    | .error cause => throw (.invalid cause)
  | _ => return r.plainReport name

end CommandResult

/-- The probe that runs a command. A command that cannot be run is a fault of the check. -/
def Probe.ofCommand (kind : CheckKind) (name : String) (i : Invocation) :
    StateM Site (Course ProbeReply) := do
  let course ← i.run
  return course.andThen fun outcome =>
    match outcome with
    | .ok r => .ok (.output kind name r)
    | .error fault =>
      .error (if fault.isA .command then .check fault.message else fault)

/-- The diagnostics that a command prints, whatever its return code. -/
def DiagnosticsConfig.collect (c : DiagnosticsConfig) (project : Route) :
    StateM Site (Course Diagnostic.Source) := do
  let course ← Invocation.run
    { words := c.command, directory := some (Route.path project), timeout := c.timeout }
  let noted : List Event :=
    match course.outcome with
    | .ok r => [⟨.info, "diagnostics_collected",
        [("command", .strs c.command), ("return_code", r.returnCode)]⟩]
    | .error _ => []
  let collected := course.andThen fun outcome =>
    outcome.map fun r => Diagnostic.Source.text r.output
  return { collected with closing := course.closing ++ noted }

end Remedy

import Remedy.Distinct
import Remedy.Json.Record
import Remedy.Probe

/-!
Validation: checks that are run one after the other, each under a timeout of its own. A check is
passed or failed by what its probe replies; a probe that fails itself, misses the deadline or calls
itself off fails the check. Once a required check has failed, those after it are skipped.
-/

set_option autoImplicit false

namespace Remedy

structure Check where
  name : String
  kind : CheckKind
  probe : Probe
  timeout : Number := seconds 60
  required : Bool := false

inductive CheckStatus where
  | passed
  | failed
  | skipped
  deriving DecidableEq, Repr, Inhabited

namespace CheckStatus

def all : List CheckStatus := [.passed, .failed, .skipped]

def name : CheckStatus → String
  | .passed => "passed"
  | .failed => "failed"
  | .skipped => "skipped"

def ofName? (name : String) : Option CheckStatus := all.find? (·.name == name)

end CheckStatus

structure CheckResult where
  name : String
  kind : CheckKind
  required : Bool
  status : CheckStatus
  message : Json
  details : List (String × Json) := []
  executionTime : Number := seconds 0
  deriving Repr

def CheckResult.success (r : CheckResult) : Bool := r.status = .passed

structure ValidationSummary where
  overallSuccess : Bool
  results : List CheckResult
  totalTime : Number
  recommendations : List String
  deriving Repr

namespace ValidationSummary

def count (s : ValidationSummary) (status : CheckStatus) : Nat :=
  (s.results.filter fun r => r.status = status).length

def json (s : ValidationSummary) : Json :=
  .obj [
    ("overall_success", s.overallSuccess),
    ("total_checks", s.results.length),
    ("passed_checks", s.count .passed),
    ("failed_checks", s.count .failed),
    ("skipped_checks", s.count .skipped),
    ("total_time", s.totalTime.rounded),
    ("results", .arr (s.results.map fun r =>
      .obj [
        ("name", r.name),
        ("kind", r.kind.name),
        ("required", r.required),
        ("status", r.status.name),
        ("message", r.message),
        ("details", .obj r.details),
        ("execution_time", r.executionTime.rounded)])),
    ("recommendations", .strs s.recommendations)]

end ValidationSummary

def CheckKind.recommendation : CheckKind → String
  | .compile => "Fix syntax errors first; they prevent other tools from working properly"
  | .lint => "Run the linter with its autofix option to resolve common style issues"
  | .build => "Build failures may indicate missing dependencies or configuration problems"
  | .test => "Inspect the failing tests; fixes may have changed runtime behavior"

/-- What to do about failed checks: one text for each kind, in the order of the failures. -/
def recommendationsFor (results : List CheckResult) : List String :=
  let failed := results.filter fun r => r.status = .failed
  match distinct (failed.map fun r => r.kind.recommendation) with
  | [] => ["All validation checks passed"]
  | texts => texts

namespace Check

def result (c : Check) (status : CheckStatus) (message : Json) (details : List (String × Json)) :
    CheckResult :=
  { name := c.name, kind := c.kind, required := c.required, status := status, message := message,
    details := details }

/-- What a fault of its probe means for a check. -/
def failure (c : Check) (fault : Fault) : CheckResult :=
  match fault with
  | .cancelled _ =>
    c.result .failed s!"{c.name} was cancelled" [("exception_type", "CancelledError")]
  | _ =>
    if fault.isA .operationTimeout then c.result .failed fault.message [("timeout", c.timeout)]
    else c.result .failed s!"{c.name} failed: {fault.message}" [("exception_type", fault.kind.name)]

/-- What the report of its probe means for a check. -/
def conclude (c : Check) (r : ProbeReport) : Except Fault CheckResult :=
  r.details.record.map fun details =>
    c.result (if r.success then .passed else .failed) r.message details

/-- What a probe's way of ending means for its check. -/
def judge (c : Check) : Settled ProbeReply → Act CheckResult
  | .overdue =>
    return c.result .failed s!"{c.name} timed out after {c.timeout.text}s" [("timeout", c.timeout)]
  | .ended (.error fault) => return c.failure fault
  | .ended (.ok (.other _)) => throw (.misuse .noMember)
  | .ended (.ok (.output kind name r)) => do
    match ← attempt (r.reportFor kind name) with
    | .ok report => Act.ofExcept (c.conclude report)
    | .error fault => return c.failure fault
  | .ended (.ok (.report r)) => Act.ofExcept (c.conclude r)

/-- Runs the probe of a check. A timeout that no clock can take fails the check. -/
def settle (c : Check) : Act CheckResult := do
  match ← attempt (Act.race c.probe c.timeout) with
  | .ok settled => c.judge settled
  | .error (.overflow cause) => return c.failure (.overflow cause)
  | .error fault => throw fault

/-- Runs the probe of a check and measures how long that takes. -/
def measure (c : Check) : Act CheckResult := do
  let start := (← get).now
  let outcome ← attempt c.settle
  let elapsed ← Act.since start
  modify fun w => { w with meter := { w.meter with
    checkDuration := w.meter.checkDuration.observe elapsed [("kind", c.kind.name)] } }
  let r ← Act.ofExcept outcome
  return { r with executionTime := elapsed }

def run (c : Check) : Act CheckResult := do
  let r ← c.measure
  Act.count .validationChecks 1 [("status", r.status.name)]
  if r.success then
    Act.log .info "validation_check_passed"
      [("check", c.name), ("duration", r.executionTime.rounded)]
  else
    Act.log .warning "validation_check_failed"
      [("check", c.name), ("required", c.required), ("reason", r.message)]
  return r

/-- The result of a check that is not run because a required one has failed. -/
def skip (c : Check) (blocker : String) : Act CheckResult := do
  Act.log .info "validation_check_skipped" [("check", c.name), ("blocked_by", blocker)]
  Act.count .validationChecks 1 [("status", CheckStatus.skipped.name)]
  return c.result .skipped s!"Skipped: required check {Text.quoted blocker} failed" []

end Check

/-- Runs checks in order, or skips them once there is a blocker. -/
def runChecks (blocker : Option String) : List Check → Act (List CheckResult)
  | [] => return []
  | c :: rest => do
    match blocker with
    | some name =>
      let r ← c.skip name
      return r :: (← runChecks blocker rest)
    | none =>
      let r ← c.run
      let blocks := c.required && r.status = .failed
      return r :: (← runChecks (if blocks then some c.name else none) rest)

def validate (checks : List Check) : Act ValidationSummary := do
  Act.log .info "validation_start" [("checks", .strs (checks.map (·.name)))]
  let start := (← get).now
  let results ← runChecks none checks
  let s : ValidationSummary :=
    { overallSuccess := results.all fun r => r.success || !r.required
      results := results
      totalTime := ← Act.since start
      recommendations := recommendationsFor results }
  Act.log .info "validation_complete"
    [("overall_success", s.overallSuccess), ("passed", s.count .passed),
      ("failed", s.count .failed), ("skipped", s.count .skipped),
      ("duration", s.totalTime.rounded)]
  return s

/-- Runs the first check that compiles, if there is one. -/
def validateQuickly (checks : List Check) : Act (Option CheckResult) :=
  match checks.find? fun c => c.kind = .compile with
  | none => return none
  | some c => return some (← c.run)

end Remedy

import Remedy.Fault

/-!
Measurements of runs. A counter is a finite map from label sets to sums, and a histogram one to the
lists of what was observed; a label set is a list of pairs sorted by name, so that the order in
which labels are given does not matter. `Meter` holds the counters and histograms of a process, and
`Meter.report` is their summary.
-/

set_option autoImplicit false

namespace Remedy

abbrev Labels := List (String × String)

def labelLe (a b : String × String) : Bool :=
  decide (a.1 < b.1) || (decide (a.1 = b.1) && !decide (b.2 < a.2))

/-- The label set of pairs that are given in any order. -/
def Labels.ofPairs (pairs : List (String × String)) : Labels := pairs.mergeSort labelLe

/-- The label set of labels that need not be given. -/
def Labels.ofGiven (labels : Option (List (String × String))) : Labels :=
  match labels with
  | some pairs => if pairs.isEmpty then [] else ofPairs pairs
  | none => []

structure Counter where
  sums : List (Labels × Double) := []
  deriving Repr

namespace Counter

def sum? (labels : Labels) : List (Labels × Double) → Option Double
  | [] => none
  | (l, x) :: rest => if l = labels then some x else sum? labels rest

def putSum (labels : Labels) (sum : Double) : List (Labels × Double) → List (Labels × Double)
  | [] => [(labels, sum)]
  | (l, x) :: rest => if l = labels then (l, sum) :: rest else (l, x) :: putSum labels sum rest

/-- Adds an amount, which must not be negative, to the sum of a label set. -/
def inc (c : Counter) (amount : Number) (labels : Labels) : Counter × Option Fault :=
  if amount.lt 0 then (c, some (.invalid .decrease))
  else
    let old := (sum? labels c.sums).getD Double.zero
    match amount.toDouble? with
    | some x => (⟨putSum labels (old.add x) c.sums⟩, none)
    | none => (⟨putSum labels old c.sums⟩, some (.overflow .conversion))

/-- The sum of a label set; the integer zero if nothing was added to it. -/
def get (c : Counter) (labels : Labels) : Number :=
  match sum? labels c.sums with
  | some x => .real x
  | none => 0

/-- The sum over all label sets, added up from the first on. -/
def total (c : Counter) : Number :=
  c.sums.foldl (fun sum e => (sum.add? (.real e.2)).getD sum) 0

end Counter

/-- The sum of numbers, added up from the first one on. -/
def Number.sum (xs : List Number) : Except Fault Number :=
  xs.foldlM
    (fun sum x =>
      match sum.add? x with
      | some sum => .ok sum
      | none => .error (.overflow .conversion))
    0

structure Histogram where
  bounds : List Number
  seen : List (Labels × List Number) := []
  deriving Repr

namespace Histogram

/-- Seconds to minutes. -/
def defaultBounds : List Number :=
  [.real (.ofDecimal false 1 (-1)), .real (.ofDecimal false 5 (-1))] ++
    [1, 5, 15, 30, 60, 120, 300].map (fun n => .real (Double.ofNat n)) ++ [.real (.infinite false)]

def ofBounds (bounds : List Number) : Histogram :=
  ⟨if bounds.isEmpty then defaultBounds else bounds, []⟩

def values? (labels : Labels) : List (Labels × List Number) → Option (List Number)
  | [] => none
  | (l, xs) :: rest => if l = labels then some xs else values? labels rest

def putValue (labels : Labels) (x : Number) :
    List (Labels × List Number) → List (Labels × List Number)
  | [] => [(labels, [x])]
  | (l, xs) :: rest =>
    if l = labels then (l, xs ++ [x]) :: rest else (l, xs) :: putValue labels x rest

def observe (h : Histogram) (x : Number) (labels : Labels) : Histogram :=
  { h with seen := putValue labels x h.seen }

/-- What was observed under a label set, or under any if none is given. -/
def values (h : Histogram) : Option Labels → List Number
  | none => h.seen.flatMap (·.2)
  | some labels => (values? labels h.seen).getD []

/-- A sum divided by the number of values, which is positive. -/
def mean (sum : Number) (count : Nat) : Except Fault Number :=
  match sum, sum.int? with
  | .real x, _ => .ok (.real (x.divNat count))
  | _, some n =>
    match Double.nearest (decide (n < 0)) n.natAbs count with
    | .infinite _ => .error (.overflow .quotient)
    | x => .ok (.real x)
  | _, none => .ok 0

/-- Count, sum, least, greatest and mean, all the integer zero if nothing was observed. -/
def stats (h : Histogram) (labels : Option Labels) : Except Fault Json := do
  match h.values labels with
  | [] => return .obj [("count", 0), ("sum", 0), ("min", 0), ("max", 0), ("mean", 0)]
  | x :: rest =>
    let total ← Number.sum (x :: rest)
    let mean ← mean total (rest.length + 1)
    return .obj [("count", (rest.length + 1 : Nat)), ("sum", total),
      ("min", .num (rest.foldl Number.min x)), ("max", .num (rest.foldl Number.max x)),
      ("mean", mean)]

/-- Adds one to the count of a bound. -/
def bump (bound : Number) : List (Number × Nat) → List (Number × Nat)
  | [] => []
  | (b, n) :: rest => if b.eq bound then (b, n + 1) :: rest else (b, n) :: bump bound rest

/-- The bounds without repetition, each with the count zero. -/
def freshBuckets (bounds : List Number) : List (Number × Nat) :=
  bounds.foldl (fun done b => if done.any (·.1.eq b) then done else done ++ [(b, 0)]) []

/-- How many values of a label set have each bound as the first that they do not exceed. -/
def buckets (h : Histogram) (labels : Labels) : List (Number × Nat) :=
  (h.values (some labels)).foldl
    (fun counts x =>
      match h.bounds.find? (fun b => x.le b) with
      | some b => bump b counts
      | none => counts)
    (freshBuckets h.bounds)

end Histogram

structure Meter where
  diagnosticsParsed : Counter := {}
  diagnosticsSkipped : Counter := {}
  phasesExecuted : Counter := {}
  phasesFailed : Counter := {}
  phasesRolledBack : Counter := {}
  fixerAttempts : Counter := {}
  fixerTimeouts : Counter := {}
  errorsFixed : Counter := {}
  runsFinished : Counter := {}
  validationChecks : Counter := {}
  phaseDuration : Histogram := ⟨Histogram.defaultBounds, []⟩
  checkDuration : Histogram := ⟨Histogram.defaultBounds, []⟩
  deriving Repr

namespace Meter

/-- Which counter of a meter. -/
inductive Tally where
  | diagnosticsParsed
  | diagnosticsSkipped
  | phasesExecuted
  | phasesFailed
  | phasesRolledBack
  | fixerAttempts
  | fixerTimeouts
  | errorsFixed
  | runsFinished
  | validationChecks
  deriving DecidableEq, Repr

def Tally.all : List Tally :=
  [.diagnosticsParsed, .diagnosticsSkipped, .phasesExecuted, .phasesFailed, .phasesRolledBack,
    .fixerAttempts, .fixerTimeouts, .errorsFixed, .runsFinished, .validationChecks]

def Tally.name : Tally → String
  | .diagnosticsParsed => "diagnostics_parsed"
  | .diagnosticsSkipped => "diagnostics_skipped"
  | .phasesExecuted => "phases_executed"
  | .phasesFailed => "phases_failed"
  | .phasesRolledBack => "phases_rolled_back"
  | .fixerAttempts => "fixer_attempts"
  | .fixerTimeouts => "fixer_timeouts"
  | .errorsFixed => "errors_fixed"
  | .runsFinished => "runs_finished"
  | .validationChecks => "validation_checks"

def counter (m : Meter) : Tally → Counter
  | .diagnosticsParsed => m.diagnosticsParsed
  | .diagnosticsSkipped => m.diagnosticsSkipped
  | .phasesExecuted => m.phasesExecuted
  | .phasesFailed => m.phasesFailed
  | .phasesRolledBack => m.phasesRolledBack
  | .fixerAttempts => m.fixerAttempts
  | .fixerTimeouts => m.fixerTimeouts
  | .errorsFixed => m.errorsFixed
  | .runsFinished => m.runsFinished
  | .validationChecks => m.validationChecks

def setCounter (m : Meter) (tally : Tally) (c : Counter) : Meter :=
  match tally with
  | .diagnosticsParsed => { m with diagnosticsParsed := c }
  | .diagnosticsSkipped => { m with diagnosticsSkipped := c }
  | .phasesExecuted => { m with phasesExecuted := c }
  | .phasesFailed => { m with phasesFailed := c }
  | .phasesRolledBack => { m with phasesRolledBack := c }
  | .fixerAttempts => { m with fixerAttempts := c }
  | .fixerTimeouts => { m with fixerTimeouts := c }
  | .errorsFixed => { m with errorsFixed := c }
  | .runsFinished => { m with runsFinished := c }
  | .validationChecks => { m with validationChecks := c }

@[simp] theorem counter_setCounter (m : Meter) (tally : Tally) (c : Counter) :
    (m.setCounter tally c).counter tally = c := by cases tally <;> rfl

theorem counter_setCounter_of_ne (m : Meter) {s t : Tally} (c : Counter) (h : s ≠ t) :
    (m.setCounter s c).counter t = m.counter t := by cases s <;> cases t <;> first | rfl | simp at h

/-- The sums of a counter, by the value of one label; the last of equal values stands. -/
def byLabel (name : String) (c : Counter) : List (String × Json) :=
  c.sums.foldl
    (fun done e => Json.insert ((Json.lookup name e.1).getD "") (.num (.real e.2)) done) []

def report (m : Meter) (uptime : Double) : Except Fault Json := do
  let phases ← m.phaseDuration.stats none
  let checks ← m.checkDuration.stats none
  return .obj [
    ("uptime_seconds", uptime),
    ("diagnostics", .obj [
      ("parsed", m.diagnosticsParsed.total), ("skipped", m.diagnosticsSkipped.total)]),
    ("phases", .obj [
      ("executed", m.phasesExecuted.total), ("failed", m.phasesFailed.total),
      ("rolled_back", m.phasesRolledBack.total),
      ("duration_stats", phases)]),
    ("fixers", .obj [
      ("attempts", m.fixerAttempts.total), ("timeouts", m.fixerTimeouts.total),
      ("errors_fixed", m.errorsFixed.total)]),
    ("runs", .obj (byLabel "state" m.runsFinished)),
    ("validation", .obj [
      ("checks", .obj (byLabel "status" m.validationChecks)),
      ("duration_stats", checks)])]

end Meter

end Remedy

import Remedy.Analysis.Summary
import Remedy.CommandLine.Flag
import Remedy.Phase
import Remedy.Run.Summary

/-!
Reports on single values, as objects of JSON: diagnostics and what was found out about them, phases,
snapshots, measurements, the results of checks and commands, runs, faults and files. In the reports
on runs and validations no time is told, so that equal runs have equal reports.
-/

set_option autoImplicit false

namespace Remedy

def sortedTexts (texts : List String) : List String := texts.mergeSort fun a b => !decide (b < a)

def Diagnostic.fields (d : Diagnostic) : List (String × Json) :=
  [("file", d.file), ("line", d.line), ("column", d.column), ("code", d.code),
    ("message", d.message), ("raw", d.raw)]

/-- The fields of a diagnostic, its place and the line that writes it. -/
def Diagnostic.json (d : Diagnostic) : Json :=
  .obj (d.fields ++ [("location", (d.location : Json)), ("format", d.format)])

def Hint.json (h : Hint) : Json :=
  .obj [("pattern", Json.ofOption .str h.pattern),
    ("suggested_fix", Json.ofOption .str h.suggestedFix),
    ("dependencies", .strs h.dependencies)]

def Finding.json (f : Finding) : Json :=
  .obj (f.diagnostic.fields ++ [("root_cause", (f.cause.name : Json)),
    ("severity", f.severity.name), ("priority", f.priority), ("hint", f.hint.json)])

def Phase.json (p : Phase) : Json :=
  .obj [("name", p.name), ("root_cause", p.cause.name), ("priority", p.priority),
    ("timeout", p.timeout.text), ("retries", p.retries), ("required", p.required),
    ("fixer_ref", p.fixerRef), ("max_attempts", p.maxAttempts), ("error_count", p.errorCount),
    ("files", .strs (sortedTexts (p.files.map Path.text))),
    ("errors", .strs (p.findings.map (·.diagnostic.format)))]

/-- Files with their digests. -/
def digestsJson (digests : List (Route × Option String)) : Json :=
  .arr (digests.map fun d => .arr [Route.text d.1, Json.ofOption .str d.2])

def Snapshot.json (s : Snapshot) : Json :=
  .obj [("run_id", s.runId), ("key", s.key), ("location", s.location.text),
    ("file_count", s.fileCount), ("files", digestsJson s.digests)]

def Labels.json (l : Labels) : Json := .arr (l.map fun p => .arr [p.1, p.2])

/-- Whether the sum under some labels may stand before another. -/
def Labels.sumLe (a b : Labels × Double) : Bool :=
  decide (a.1.map Prod.fst < b.1.map Prod.fst) ||
    (a.1.map Prod.fst == b.1.map Prod.fst && !decide (b.1.map Prod.snd < a.1.map Prod.snd))

/-- The sums of every counter that has any, and how much was observed. -/
def Meter.json (m : Meter) : Json :=
  let counters := Meter.Tally.all.filterMap fun t =>
    let sums := (m.counter t).sums.mergeSort Labels.sumLe
    if sums.isEmpty then none
    else some (t.name, Json.arr (sums.map fun s => .arr [s.1.json, s.2]))
  .obj (counters ++ [("phase_duration_count", ((m.phaseDuration.values none).length : Json)),
    ("check_duration_count", (m.checkDuration.values none).length)])

def CheckResult.json (r : CheckResult) : Json :=
  .obj [("name", r.name), ("kind", r.kind.name), ("required", r.required),
    ("status", r.status.name), ("message", r.message), ("details", .obj r.details),
    ("success", r.success)]

def ProbeReport.json (r : ProbeReport) : Json :=
  .obj [("success", r.success), ("message", r.message), ("details", r.details)]

def CommandResult.json (r : CommandResult) : Json :=
  .obj [("stdout", r.stdout), ("stderr", r.stderr), ("return_code", r.returnCode),
    ("command", .strs r.command), ("success", r.success), ("output", r.output)]

/-- An object without some of its fields. -/
def Json.without (j : Json) (names : List String) : Json :=
  .obj (j.fields.filter fun f => !names.contains f.1)

/-- An object with one of its fields changed. -/
def Json.change (j : Json) (name : String) (f : Json → Json) : Json :=
  .obj (j.fields.map fun (k, v) => (k, if k = name then f v else v))

/-- Pairs as lists, where the order of an object has to be told. -/
def Json.pairs (fields : List (String × Json)) : Json := .arr (fields.map fun f => .arr [f.1, f.2])

def AnalysisSummary.orderedJson (s : AnalysisSummary) : Json :=
  let ordered := ["by_root_cause", "by_severity", "by_code"].foldl
    (fun j name => j.change name fun v => .pairs v.fields) s.json
  let place (f : Finding) : Json := .arr [f.diagnostic.line, f.diagnostic.column, f.code]
  .obj (ordered.fields ++
    [("by_file", .pairs (s.byFile.map fun (file, group) => (file, .arr (group.map place))))])

/-- The texts of a list, sorted. -/
def Json.sorted (j : Json) : Json := .strs (sortedTexts (j.items.filterMap Json.str?))

def PhaseResult.timeless (r : PhaseResult) : Json :=
  (r.json.without ["execution_time"]).change "details" fun d => d.change "unrestored" Json.sorted

def ValidationSummary.timeless (s : ValidationSummary) : Json :=
  (s.json.without ["total_time"]).change "results" fun rs =>
    .arr (rs.items.map fun r => r.without ["execution_time"])

def RunSummary.timeless (s : RunSummary) : Json :=
  let j := (s.json.change "history" fun _ => .arr (s.history.map PhaseResult.timeless)).change
    "validation" fun _ => Json.ofOption ValidationSummary.timeless s.validation
  .obj (j.fields ++ [("success", (s.success : Json))])

def Transition.json (t : Transition) : Json :=
  .arr [t.source.name, t.target.name, Json.ofOption .str t.phase, t.reason]

def RunContext.json (c : RunContext) : List (String × Json) :=
  let byText (a b : Route × Option String) : Bool := !decide (Route.text b.1 < Route.text a.1)
  [("state", c.state.name), ("exit_code", c.state.exitCode),
    ("error", Json.ofOption .str c.error), ("warnings", .strs c.warnings),
    ("fixed_count", Json.ofOption .num c.fixedCount.toOption), ("mutated", c.mutated),
    ("transitions", .arr (c.transitions.map Transition.json)),
    ("history", .arr (c.history.map PhaseResult.timeless)),
    ("snapshots", .obj (c.snapshots.map fun (key, s) => (key, .obj [
      ("files", digestsJson (s.digests.mergeSort byText)), ("location", s.location.text)]))),
    ("validation", Json.ofOption ValidationSummary.timeless c.validation)]

/-- A fault: its kind, and unless the kind says it all, its message and what belongs to it. -/
def Fault.json (f : Fault) : List (String × Json) :=
  let kind : String × Json := ("error", f.kind.name)
  let plain : List (String × Json) := [kind, ("message", f.message)]
  let problem (p : Problem) : Json :=
    .obj ([("loc", .arr p.place), ("type", (p.rule : Json))] ++
      (p.reason.map fun r => ("msg", Json.str ("Value error, " ++ r))).toList)
  match f with
  | .settings _ problems => [kind, ("details", .arr (problems.map problem))]
  | .rollback failed _ => plain ++ [("paths", .strs (sortedTexts failed))]
  | .operationTimeout _ t => plain ++ [("timeout", .num t)]
  | .phaseTimeout _ t => plain ++ [("timeout", .num t)]
  | .transition s t => plain ++ [("source", .str s.name), ("target", .str t.name)]
  | _ =>
    if [.key, .type, .attribute, .index, .markup].contains f.kind then [kind] else plain

/-- What becomes of arguments that are not carried out. -/
def Usage.json : Usage → Json
  | .shown text => .obj [("exit", 0), ("stdout", text), ("usage_error", .arr [])]
  | .refused program reason =>
    let lines := Text.splitLines s!"{program}: error: {reason}".toList
    .obj [("exit", 2), ("stdout", ""), ("usage_error",
      .strs ((lines.filter (Text.occurs ": error: ".toList)).map String.ofList))]

/-! ### Files -/

/-- Content as a text, or in hexadecimal digits if it is none. -/
def contentJson (content : Text.Bytes) : Json :=
  match Text.decodeStrict content with
  | .ok s => s
  | .error _ => .obj [("hex", .str (String.join (content.map Text.hexByte)))]

def bytesOfHex : List Char → Text.Bytes
  | a :: b :: rest =>
    UInt8.ofNat ((Json.hexValue? a).getD 0 * 16 + (Json.hexValue? b).getD 0) :: bytesOfHex rest
  | _ => []

/-- The content that a text or hexadecimal digits stand for. -/
def contentOfJson (j : Json) : Text.Bytes :=
  match j, j.get? "hex" with
  | .str s, _ => Text.encode s
  | _, some (.str digits) => bytesOfHex digits.toList
  | _, _ => []

/-- A route as it is written below a directory. -/
def Route.shortText (r : Route) : String := Path.text ⟨.none, r⟩

/-- What lies below a directory, without what lies at `hidden`: files with their content, links, and
directories that are empty. -/
def FileTree.json (t : FileTree) (route hidden : Route) : Json :=
  let shown := t.entries.filter fun e =>
    route.isPrefixOf e.1 && e.1 != route && !hidden.isPrefixOf e.1
  .obj (shown.filterMap fun (r, node) =>
    let name := Route.shortText (r.drop route.length)
    match node with
    | .file content _ => some (name, contentJson content)
    | .link target => some (name, .obj [("symlink", target)])
    | .directory _ =>
      if shown.any fun e => e.1.dropLast == r then none else some (name, .obj [("dir", true)]))

/-- The files below a directory, sorted. -/
def FileTree.namesBelow (t : FileTree) (directory : Path) : Json :=
  match t.walk directory with
  | .ok (.at route _) => .strs (sortedTexts ((t.below route).filterMap fun (r, node) =>
      if r != [] && !node.isDirectory then some (Route.shortText r) else none))
  | _ => .arr []

end Remedy

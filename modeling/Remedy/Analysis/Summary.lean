import Remedy.Analysis

/-!
Summary of an analysis, for reports: the findings grouped by file, root cause and severity in the
order of first occurrence (root causes by priority), the number of occurrences of each code, the
files that hold a critical finding, and one recommendation per root cause that occurs.
-/

set_option autoImplicit false

namespace Remedy

/-- Groups the elements of a list by a key; groups stand in the order of their first element. -/
def groupBy {α κ : Type} [DecidableEq κ] (key : α → κ) (xs : List α) : List (κ × List α) :=
  (distinct (xs.map key)).map fun k => (k, xs.filter fun x => key x = k)

structure AnalysisSummary where
  total : Nat
  byFile : List (String × List Finding)
  byCause : List (RootCause × List Finding)
  bySeverity : List (Severity × List Finding)
  byCode : List (String × Nat)
  criticalFiles : List String
  recommendations : List String
  deriving Repr

namespace AnalysisSummary

def advice : RootCause → String
  | .syntactic => "Fix syntax errors first; they hide other diagnostics"
  | .imports => "Resolve import and module errors next"
  | .types => "Address type errors once the tree parses and imports resolve"
  | .unused => "Clean up unused declarations last"
  | .other => "Review remaining diagnostics manually"

/-- Sorts names that are counted: the greater count first, then by name. -/
def ranked (counts : List (String × Nat)) : List (String × Nat) :=
  counts.mergeSort fun a b => b.2 < a.2 || (a.2 == b.2 && !decide (b.1 < a.1))

def sortedNames (names : List String) : List String :=
  (distinct names).mergeSort fun a b => !decide (b < a)

def recommendation (cause : RootCause) (group : List Finding) : String :=
  let codes := String.intercalate ", " ((sortedNames (group.map Finding.code)).take 3)
  s!"{advice cause} ({group.length}: {codes})"

def ofFindings (found : List Finding) : AnalysisSummary :=
  let byFile := groupBy Finding.file found
  let byCause := RootCause.all.filterMap fun cause =>
    let group := found.filter fun f => f.cause = cause
    if group.isEmpty then none else some (cause, group)
  let critical := byFile.map fun g => (g.1, g.2.countP fun f => f.severity = .critical)
  { total := found.length
    byFile := byFile
    byCause := byCause
    bySeverity := groupBy Finding.severity found
    byCode := ranked ((groupBy Finding.code found).map fun g => (g.1, g.2.length))
    criticalFiles := (ranked (critical.filter fun c => 0 < c.2)).map Prod.fst
    recommendations :=
      if byCause.isEmpty then ["No diagnostics found; nothing to remediate"]
      else byCause.map fun g => recommendation g.1 g.2 }

def json (s : AnalysisSummary) : Json :=
  .obj [
    ("total_errors", s.total),
    ("file_count", s.byFile.length),
    ("by_root_cause", .obj (s.byCause.map fun g => (g.1.name, (g.2.length : Json)))),
    ("by_severity", .obj (s.bySeverity.map fun g => (g.1.name, (g.2.length : Json)))),
    ("by_code", .obj (s.byCode.map fun c => (c.1, (c.2 : Json)))),
    ("critical_files", .strs s.criticalFiles),
    ("recommendations", .strs s.recommendations)]

end AnalysisSummary

end Remedy

import Remedy.Classification
import Remedy.Diagnostic.Reader
import Remedy.Distinct
import Remedy.Hint

/-!
Analysis of diagnostics: each is given its root cause, and with it a severity and a priority, and a
hint. Findings are put in order of priority, file, line and column; findings that agree in all four
stay in the order in which they were read.
-/

set_option autoImplicit false

namespace Remedy

structure Finding where
  diagnostic : Diagnostic
  cause : RootCause
  hint : Hint := {}
  deriving DecidableEq, Repr, Inhabited

namespace Finding

def file (f : Finding) : String := f.diagnostic.file
def code (f : Finding) : String := f.diagnostic.code
def severity (f : Finding) : Severity := f.cause.severity
def priority (f : Finding) : Nat := f.cause.priority

def ofDiagnostic (extra : ExtraCodes) (d : Diagnostic) : Finding :=
  ⟨d, RootCause.classify extra d.code d.message, Hint.ofDiagnostic d⟩

/-- Whether a finding may stand before another within one file order. -/
def placeLe (a b : Finding) : Bool :=
  if a.file = b.file then
    a.diagnostic.line < b.diagnostic.line ||
      (a.diagnostic.line == b.diagnostic.line && a.diagnostic.column ≤ b.diagnostic.column)
  else decide (a.file < b.file)

/-- Whether a finding may stand before another: by priority, file, line and column. -/
def le (a b : Finding) : Bool :=
  a.priority < b.priority || (a.priority == b.priority && placeLe a b)

end Finding

/-- The findings of diagnostics, in order. -/
def findings (extra : ExtraCodes) (diagnostics : List Diagnostic) : List Finding :=
  (diagnostics.map (Finding.ofDiagnostic extra)).mergeSort Finding.le

def analyze (extra : ExtraCodes) (source : Diagnostic.Source) : Act (List Finding) := do
  let found := findings extra (← Diagnostic.read source)
  Act.log .info "diagnostics_analyzed"
    [("total", found.length), ("files", (distinct (found.map Finding.file)).length)]
  return found

end Remedy

import Remedy.Analysis
import Remedy.Json.Record

/-!
Fixers: work that rewrites the files of a phase. A fixer is handed the files, the findings that it
is to remedy and the moment of its deadline, and replies with a count of the findings that it fixed
or with a report. Reports come from outside and may hold values of any kind; `FixReply.report` sorts
out those that cannot be one.
-/

set_option autoImplicit false

namespace Remedy

structure FixRequest where
  files : List Path
  findings : List Finding
  deadline : Moment

structure FixReport where
  fixedCount : Json
  success : Json := true
  message : Json := ""
  details : Json := .obj []
  deriving Repr

inductive FixReply where
  | count (n : Int)
  | report (r : FixReport)
  /-- Something else, of which only the kind matters. -/
  | other (kind : String)
  deriving Repr

structure Fixer where
  /-- The kind of thing that the fixer is. -/
  kind : String
  /-- The name of the routine, if that is all that the fixer is. -/
  name : Option String := none
  fix : FixRequest → Work FixReply

namespace FixReply

/-- Whether a count is negative, none if it is no number at all. -/
def isNegative? : Json → Option Bool
  | .num n => some (n.lt 0)
  | .bool _ => some false
  | _ => none

/-- The report in a reply to the phase of a name. -/
def check (phase : String) (reply : FixReply) : Except Fault FixReport := do
  let r ← match reply with
    | .count n => .ok { fixedCount := n }
    | .report r => .ok r
    | .other kind => .error (.fixer (.strange phase kind))
  match isNegative? r.fixedCount with
  | none => .error (.misuse .wrongType)
  | some true => .error (.fixer (.negative phase))
  | some false => .ok r

end FixReply

/-- The number in a count, which may be a truth value. -/
def Json.amount : Json → Number
  | .num n => n
  | .bool b => .truth b
  | _ => 0

end Remedy

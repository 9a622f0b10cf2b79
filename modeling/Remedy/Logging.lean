import Remedy.Text.Casing
import Remedy.World

/-!
Setting up the log: from which level on events are printed, in which format, and to which file
besides. A file that cannot be opened is done without.
-/

set_option autoImplicit false

namespace Remedy

namespace LogLevel

/-- The level of a name, in letters of either case. -/
def ofText (text : String) : Except Invalid LogLevel :=
  let name := Text.upper text
  match all.find? fun l => l.upperName == name with
  | some level => .ok level
  | none => .error (.member name "LogLevel")

end LogLevel

/-- The format of a name, in letters of either case. -/
def LogFormat.ofText (text : String) : Except Invalid LogFormat :=
  let name := Text.lower text
  match [LogFormat.json, .console].find? fun f => f.name == name with
  | some format => .ok format
  | none => .error (.member name "LogFormat")

namespace Act

/-- Opens the file of the log, in a directory that is made if need be. -/
def openLog (p : Path) : Act (Option Route) := do
  if p.hasNul then throw (.invalid .nul)
  let outcome ← tryFiles do
    FileAct.makePath p.parent true
    FileAct.openEnd p
  return outcome.toOption

def setUpLog (level : LogLevel) (format : LogFormat) (file : Option Path) : Act Unit := do
  let route ← match file with
    | some p => openLog p
    | none => pure none
  modify fun w => { w with journal := { w.journal with sink := some ⟨level, format, route⟩ } }

end Act

end Remedy

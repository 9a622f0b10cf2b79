import Remedy.Shell.Script
import Remedy.Work

/-!
What a running program sees and changes: the files, its variables and arguments, its streams, and
the time that it takes. A program ends with a status, or it is ended: by leaving, by a signal, or
because its time is up.
-/

set_option autoImplicit false

namespace Remedy.Shell

/-- How a program ends other than by coming to its end. -/
inductive Ending where
  | left (status : Nat)
  | killed (signal : Nat)
  | overdue
  deriving DecidableEq, Repr

/-- Where a stream goes. -/
inductive Stream where
  | output
  | errors
  | file (route : Route)
  deriving DecidableEq, Repr

structure Session where
  files : FileTree
  bindings : List (String × String) := []
  /-- The name of the program and its arguments. -/
  arguments : List String := []
  input : Text.Bytes := []
  output : Text.Bytes := []
  errors : Text.Bytes := []
  first : Stream := .output
  second : Stream := .errors
  /-- The status of the last command. -/
  status : Nat := 0
  spent : Moment := 0
  /-- The time that the program has, unbounded if none. -/
  limit : Option Moment := none

abbrev ShellAct := ExceptT Ending (StateM Session)

/-- A program by its arguments; what it returns is its status. -/
abbrev Program := List String → ShellAct Nat

namespace ShellAct

/-- Writes to where a stream goes. -/
def send (content : Text.Bytes) : Stream → ShellAct Unit
  | .output => modify fun s => { s with output := s.output ++ content }
  | .errors => modify fun s => { s with errors := s.errors ++ content }
  | .file route => modify fun s => { s with files := (FileAct.append route content s.files).2 }

def print (content : Text.Bytes) : ShellAct Unit := do send content (← get).first

/-- Writes a line to the stream of errors. -/
def complain (line : String) : ShellAct Unit := do
  send (Text.encode (line ++ "\n")) (← get).second

def tryFiles {α : Type} (act : FileAct α) : ShellAct (Except FileError α) := fun s =>
  let (outcome, files) := act s.files
  (.ok outcome, { s with files := files })

/-- Lets time pass, as far as there is any left. -/
def sleep (time : Moment) : ShellAct Unit := do
  let s ← get
  let later := s.spent + time
  match s.limit with
  | some limit =>
    if limit ≤ later then
      set { s with spent := limit }
      throw .overdue
    else set { s with spent := later }
  | none => set { s with spent := later }

/-- The name under which the shell complains. -/
def shellName : ShellAct String := do return (← get).arguments.headD "sh"

def complainHere (text : String) : ShellAct Unit := do complain s!"{← shellName}: 1: {text}"

/-- Runs an action with a stream going elsewhere. -/
def withStreams {α : Type} (change : Session → Session) (act : ShellAct α) : ShellAct α := fun s =>
  let (outcome, after) := act (change s)
  (outcome, { after with first := s.first, second := s.second, input := s.input })

end ShellAct

end Remedy.Shell

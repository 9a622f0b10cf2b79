import Remedy.Backup.Store
import Remedy.Text.Blank

/-!
The lock of a project: a file in the backup directory on which at most one activity holds an
exclusive lock at a time. While the lock is held the file names the holder; `RunLock.poll` is one
attempt to take it, and `RunLock.acquire` polls until a deadline.
-/

set_option autoImplicit false

namespace Remedy

def lockName : String := ".run.lock"

structure RunLock where
  path : Path
  runId : String := ""
  timeout : Number := seconds 0
  /-- Tells the activities of a world apart. -/
  owner : Nat := 0
  deriving Repr

/-- Who holds the lock on a file. -/
def holderOf (route : Route) : List (Route × Nat) → Option Nat
  | [] => none
  | (r, owner) :: rest => if r = route then some owner else holderOf route rest

namespace RunLock

/-- The lock of the project at a path. -/
def ofProject (project : Path) (directory : String) : RunLock :=
  { path := (project.join (Path.ofString directory)).child lockName }

/-- The file on which an activity holds the lock. -/
def heldFile (owner : Nat) : List (Route × Nat) → Option Route
  | [] => none
  | (route, o) :: rest => if o = owner then some route else heldFile owner rest

def isHeld (l : RunLock) (w : World) : Bool := (heldFile l.owner w.locks).isSome

/-- What the file says while the lock is held. -/
def holderLine (l : RunLock) (process : Nat) : String := s!"pid={process} run_id={l.runId}\n"

/-- Puts a text in the place of what a file holds. -/
def overwrite (route : Route) (text : String) : Act Unit :=
  Act.onFiles do
    modify fun t =>
      match t.node? route with
      | some (.file _ mode) => t.set route (.file (Text.encode text) mode)
      | _ => t

/-- What the file says about the holder, without the white space at its ends. -/
def readHolder (route : Route) : Act String := do
  match (← get).files.node? route with
  | some (.file content _) =>
    match Text.decodeStrict content with
    | .ok text => return String.ofList (Text.strip (Text.lineFeeds text.toList))
    | .error e => throw (.undecodable e)
  | _ => return ""

/-- Takes the lock on a file if nobody holds it. -/
def poll (l : RunLock) (route : Route) : Act Bool := do
  let w ← get
  if (holderOf route w.locks).isSome then return false
  set { w with locks := (route, l.owner) :: w.locks }
  overwrite route (l.holderLine w.process)
  return true

/-- Refuses because somebody else holds the lock. -/
def refuse (l : RunLock) (route : Route) : Act Unit := do
  let holder ← readHolder route
  Act.log .warning "run_lock_busy" [("path", l.path.text), ("holder", holder)]
  throw (.locked l.path.text holder)

def pollInterval : Moment := 1 / 20

/-- Polls until the lock is taken or the deadline has passed, at most `polls` times more. -/
def pollUntil (l : RunLock) (route : Route) (deadline : Moment) : (polls : Nat) → Act Unit
  | 0 => do
    if !(← l.poll route) then l.refuse route
  | polls + 1 => do
    if ← l.poll route then return ()
    if deadline ≤ (← get).now then l.refuse route
    else
      Act.pause pollInterval
      l.pollUntil route deadline polls

/-- How many polls fit into a time. -/
def pollCount (timeout : Moment) : Nat := (timeout / pollInterval).ceil.toNat + 1

/-- Takes the lock, unless it is held already, within the timeout of the lock or another one. -/
def acquire (l : RunLock) (timeout : Option Number) : Act Unit := do
  if l.isHeld (← get) then return ()
  let timeout := timeout.getD l.timeout
  if timeout.toDouble?.isNone then throw (.overflow .conversion)
  Act.onFiles (FileAct.makePath l.path.parent true)
  let route ← Act.onFiles (FileAct.openEnd l.path)
  let grace := timeout.toRat?.getD 0
  l.pollUntil route ((← get).now + grace) (pollCount grace)
  Act.log .debug "run_lock_acquired" [("path", l.path.text)]

/-- Gives the lock up, if it is held, and empties the file. -/
def release (l : RunLock) : Act Unit := do
  let w ← get
  match heldFile l.owner w.locks with
  | none => return ()
  | some route =>
    overwrite route ""
    modify fun w => { w with locks := w.locks.filter fun h => h.2 != l.owner }
    Act.log .debug "run_lock_released" [("path", l.path.text)]

/-- Carries out an action while the lock is held, and gives the lock up in any case. -/
def during {α : Type} (l : RunLock) (act : Act α) : Act α := do
  l.acquire none
  andThenAlways act l.release

end RunLock

end Remedy

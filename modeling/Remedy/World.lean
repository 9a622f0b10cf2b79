import Remedy.Meter
import Remedy.Work

/-!
What a run can see and change: the site, the log, the measurements, the time that has passed and the
locks that are held. An action either returns a value or fails, and in both cases leaves a world
behind.

Time passes only where an action waits. `World.interrupt` is the moment at which the whole activity
is called off from outside; an action that would wait past it fails there. Work that misses its
deadline is told to stop and is not waited for; if it answers with a fault, that is logged when the
action next waits.
-/

set_option autoImplicit false

namespace Remedy

structure World extends Site where
  journal : Journal := {}
  meter : Meter := {}
  now : Moment := 0
  interrupt : Option Moment := none
  /-- Faults of work that was told to stop and is not waited for, the oldest first, each with what
  was bound to the log at that time. -/
  abandoned : List (List (String × Json) × Fault) := []
  /-- Distinguishes the random names that are drawn one after the other. -/
  draws : Nat := 0
  /-- The number of the process. -/
  process : Nat := 1
  /-- Which activity holds the lock on which file. -/
  locks : List (Route × Nat) := []
  deriving Inhabited

abbrev Act := ExceptT Fault (StateM World)

/-- How work that has a deadline comes out. -/
inductive Settled (α : Type) where
  | ended (outcome : Except Fault α)
  | overdue

/-- Runs an action and hands back its outcome. -/
def attempt {σ α : Type} (act : ExceptT Fault (StateM σ) α) :
    ExceptT Fault (StateM σ) (Except Fault α) := fun s =>
  let (outcome, s) := act s
  (.ok outcome, s)

/-- Runs an action and then another, whether or not the first one fails. -/
def andThenAlways {σ α : Type} (act : ExceptT Fault (StateM σ) α)
    (last : ExceptT Fault (StateM σ) Unit) : ExceptT Fault (StateM σ) α := do
  let outcome ← attempt act
  last
  match outcome with
  | .ok value => return value
  | .error fault => throw fault

namespace Act

def ofExcept {α : Type} (outcome : Except Fault α) : Act α := fun w => (outcome, w)

/-- The value that no rule excludes. -/
def valid {α : Type} (outcome : Except Invalid α) : Act α := ofExcept (outcome.mapError .invalid)

/-- Adds an event to the log, and to its file if it has one. -/
def record (event : Event) : Act Unit :=
  modify fun w =>
    let files :=
      match w.journal.sink.bind (·.file), w.journal.prints event.level with
      | some route, true =>
        let line := (w.journal.inContext event).line.compact ++ "\n"
        (FileAct.append route (Text.encode line) w.files).2
      | _, _ => w.files
    { w with journal := w.journal.record event, files := files }

def log (level : LogLevel) (name : String) (fields : List (String × Json)) : Act Unit :=
  record ⟨level, name, fields⟩

def bindField (name : String) (value : Json) : Act Unit :=
  modify fun w => { w with journal := w.journal.bind name value }

def unbindField (name : String) : Act Unit :=
  modify fun w => { w with journal := w.journal.unbind name }

/-- Adds to a counter of the meter. -/
def count (tally : Meter.Tally) (amount : Number) (labels : Labels) : Act Unit := do
  let w ← get
  let (c, fault) := (w.meter.counter tally).inc amount labels
  set { w with meter := w.meter.setCounter tally c }
  match fault with
  | some fault => throw fault
  | none => pure ()

/-- Eight hexadecimal digits that no earlier draw gave. -/
def drawName : Act String := do
  let w ← get
  set { w with draws := w.draws + 1 }
  return String.ofList (Text.hexPadded 8 (w.draws + 1))

/-- Carries out an operation on the files and hands back its outcome. -/
def tryFiles {α : Type} (act : FileAct α) : Act (Except FileError α) := fun w =>
  let (outcome, files) := act w.files
  (.ok outcome, { w with files := files })

/-- Carries out an operation on the files. -/
def onFiles {α : Type} (act : FileAct α) : Act α := do
  match ← tryFiles act with
  | .ok value => return value
  | .error e => throw (.file e)

/-! ### Waiting -/

/-- Carries out an action with other fields bound to the log. -/
def withBound {α : Type} (bound : List (String × Json)) (act : Act α) : Act α := do
  let old := (← get).journal.bound
  modify fun w => { w with journal := { w.journal with bound := bound } }
  andThenAlways act (modify fun w => { w with journal := { w.journal with bound := old } })

/-- Lets everything else go on that is ready to: how abandoned work failed is logged now. -/
def giveWay : Act Unit := do
  let abandoned := (← get).abandoned
  modify fun w => { w with abandoned := [] }
  abandoned.forM fun (bound, fault) =>
    withBound bound (log .debug "abandoned_task_failed"
      [("exception_type", fault.kind.name), ("exception_message", fault.message)])

/-- Lets time pass, unless the activity is called off in the meantime. -/
def pause (seconds : Moment) : Act Unit := do
  giveWay
  let w ← get
  let later := w.now + seconds
  match w.interrupt with
  | some moment =>
    if w.now < moment ∧ moment ≤ later then
      set { w with now := moment, interrupt := none }
      throw (.cancelled "")
    else set { w with now := later }
  | none => set { w with now := later }

/-- Waits until the activity is called off; if that never happens, for ever, which is left out. -/
def waitForever : Act Unit := do
  let w ← get
  match w.interrupt with
  | some moment => if w.now < moment then pause (moment - w.now) else return ()
  | none => return ()

/-- Waits until a timeout ends. -/
def expire (timeout : Number) : Act Unit :=
  match timeout with
  | .real (.infinite false) => waitForever
  | _ => pause (Moment.ofSeconds timeout)

/-- The seconds from a moment until now. -/
def since (start : Moment) : Act Number := do
  let elapsed := (← get).now - start
  return .real (Double.nearest (decide (elapsed < 0)) elapsed.num.natAbs elapsed.den)

/-- Starts work: what it does to the site is done now. -/
def begin {α : Type} (work : Work α) : Act (Course α) := do
  let w ← get
  let (course, site) := work w.toSite
  set { w with toSite := site }
  course.opening.forM record
  return course

/-- Waits for work that has a deadline. Work is started even if no clock can take the timeout. -/
def race {α : Type} (work : Work α) (timeout : Number) : Act (Settled α) := do
  let course ← begin work
  if timeout.toDouble?.isNone then throw (.overflow .conversion)
  let busy := course.isBusyAfter timeout
  if busy || course.endless then
    expire timeout
    let answer := if busy then none else course.onStop
    modify fun w =>
      { w with abandoned := w.abandoned ++ answer.toList.map fun fault => (w.journal.bound, fault) }
    log .warning "operation_timeout" [("timeout", timeout)]
    return .overdue
  else
    pause course.delay
    course.closing.forM record
    return .ended course.outcome

/-- Waits for work that has a deadline and fails with the given text if it is missed. -/
def within {α : Type} (work : Work α) (timeout : Number) (text : String) : Act α := do
  match ← race work timeout with
  | .ended (.ok value) => return value
  | .ended (.error fault) => throw fault
  | .overdue =>
    throw (.operationTimeout
      (if text.isEmpty then s!"Operation timed out after {timeout.text}s" else text) timeout)

/-- Waits for work however long it takes. -/
def finish {α : Type} (work : Work α) : Act α := do
  let course ← begin work
  if course.waits then pause course.delay
  if course.endless then waitForever
  course.closing.forM record
  match course.outcome with
  | .ok value => return value
  | .error fault => throw fault

end Act

end Remedy

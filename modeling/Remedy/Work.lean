import Remedy.FileTree.Operation
import Remedy.Journal

/-!
Work that is done for the program by others: fixers, probes and programs. Work sees and changes a
`Site`: the files, the environment, and a memory in which it may keep what it likes from one call to
the next. What it does to the site it does when it is started; how long it then takes, and how it
ends, is its `Course`.
-/

set_option autoImplicit false

namespace Remedy

/-- Seconds since the start. -/
abbrev Moment := Rat

/-- A moment, or the start if it lies before it. -/
def Moment.fromStart (moment : Moment) : Moment := if moment < 0 then 0 else moment

/-- The moment at which a timeout ends; one that is no number of seconds ends at once. -/
def Moment.ofSeconds (timeout : Number) : Moment := Moment.fromStart (timeout.toRat?.getD 0)

/-- So short a time that it is over before anything else can happen. -/
def Moment.instant : Moment := 1 / 100000

/-- What lies outside of the program. -/
structure Site where
  files : FileTree
  bindings : List (String × String) := []
  memory : List Json := []
  deriving Inhabited

structure Course (α : Type) where
  /-- How long the work is busy. -/
  delay : Moment := 0
  /-- How often in that time it lets everything else that is ready go first. -/
  turns : Nat := 0
  /-- Whether it then waits for ever instead of ending. -/
  endless : Bool := false
  outcome : Except Fault α
  /-- The fault with which the work, once it waits for ever, answers being told to stop, if it does
  not simply stop. -/
  onStop : Option Fault := none
  /-- What is logged when the work starts. -/
  opening : List Event := []
  /-- What is logged when the work ends of itself. -/
  closing : List Event := []

abbrev Work (α : Type) := StateM Site (Course α)

namespace Course

def done {α : Type} (value : α) : Course α := { outcome := .ok value }

def failed {α : Type} (fault : Fault) : Course α := { outcome := .error fault }

/-- Whether the work is still busy when its time is up. If there is next to no time, the work is
only waited for until what is ready has had its turn, and its own second turn is part of that. -/
def isBusyAfter {α : Type} (c : Course α) (timeout : Number) : Bool :=
  match timeout with
  | .real (.infinite false) => false
  | _ =>
    let limit := Moment.ofSeconds timeout
    if limit < Moment.instant then decide (0 < c.delay) || decide (1 < c.turns)
    else decide (0 < c.delay) && decide (limit ≤ c.delay)

/-- Whether the work stands still at some point before it ends. -/
def waits {α : Type} (c : Course α) : Bool := decide (0 < c.delay) || 0 < c.turns || c.endless

/-- The same course with another outcome. -/
def andThen {α β : Type} (c : Course α) (f : Except Fault α → Except Fault β) : Course β :=
  { delay := c.delay
    turns := c.turns
    endless := c.endless
    outcome := f c.outcome
    onStop := c.onStop
    opening := c.opening
    closing := c.closing }

end Course

namespace Work

/-- Work that leaves the site as it is. -/
def ofCourse {α : Type} (c : Course α) : Work α := fun s => (c, s)

/-- Carries out an operation on the files and hands back its outcome. -/
def tryFiles {α : Type} (act : FileAct α) : StateM Site (Except FileError α) := fun s =>
  let (outcome, files) := act s.files
  (outcome, { s with files := files })

def remember (note : Json) : StateM Site Unit := modify fun s =>
  { s with memory := s.memory ++ [note] }

end Work

end Remedy

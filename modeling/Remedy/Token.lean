import Remedy.World

/-!
Tokens of cancellation. Work that is handed a token asks it now and then whether it should stop. A
token is cancelled by whoever holds it, or by its deadline.
-/

set_option autoImplicit false

namespace Remedy

/-- When a token ends of itself. -/
inductive Deadline where
  | absent
  /-- A deadline that no moment reaches. -/
  | unreachable
  | moment (moment : Moment)
  deriving Repr

/-- The deadline some time after a moment; what is shorter than an instant is over at once. -/
def Deadline.after (now : Moment) (timeout : Number) : Except Fault Deadline :=
  match timeout.toDouble? with
  | none => .error (.overflow .conversion)
  | some (.infinite true) => .ok (.moment now)
  | some time =>
    match time.toRat? with
    | none => .ok .unreachable
    | some time => .ok (.moment (if time < Moment.instant then now else now + time))

structure Token where
  deadline : Deadline := .absent
  /-- Whether it has been cancelled, as far as anybody has looked. -/
  marked : Bool := false
  deriving Repr

namespace Token

def cancel (t : Token) : Token := { t with marked := true }

def isCancelled (t : Token) (now : Moment) : Bool :=
  t.marked || match t.deadline with
    | .moment deadline => decide (deadline ≤ now)
    | _ => false

/-- Whether no time is left up to the deadline, if there is one. -/
def isOver? (t : Token) (now : Moment) : Option Bool :=
  match t.deadline with
  | .absent => none
  | .unreachable => some false
  | .moment deadline => some (decide (deadline ≤ now))

/-- Waits until the token is cancelled. -/
def wait (t : Token) : Act Token := do
  if t.marked then return t
  match t.deadline with
  | .moment deadline => Act.pause (Moment.fromStart (deadline - (← get).now))
  | _ => Act.waitForever
  return t.cancel

/-- Stops whoever asks, if the token is cancelled. -/
def check (t : Token) : Act Unit := do
  if t.isCancelled (← get).now then throw (.cancelled "Operation was cancelled")

theorem isCancelled_cancel (t : Token) (now : Moment) : t.cancel.isCancelled now = true := by
  simp [cancel, isCancelled]

end Token

end Remedy

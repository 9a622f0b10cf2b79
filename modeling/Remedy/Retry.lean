import Remedy.World

/-!
Repetition of what may fail. After a failure of one of the kinds that are worth another attempt, and
as long as attempts are left, there is a wait and then the next attempt; the fault of the last
attempt stands. The wait doubles from one attempt to the next and never exceeds a limit.
-/

set_option autoImplicit false

namespace Remedy

structure RetryPolicy where
  backoff : Number := seconds 0
  longestWait : Number := seconds 30
  kinds : List FaultKind := [.phaseTimeout, .fixer]
  deriving Repr

namespace RetryPolicy

/-- Whether a fault is worth another attempt. -/
def covers (p : RetryPolicy) (fault : Fault) : Bool := p.kinds.any fault.isA

/-- The backoff doubled `times` times, none if that is out of range. -/
def doubled (backoff : Number) (times : Nat) : Option Number :=
  match backoff, backoff.int? with
  | .real x, _ => (Double.ofInt? (Nat.pow 2 times : Nat)).map fun power => .real (x.mul power)
  | _, some n => some (.int (n * (Nat.pow 2 times : Nat)))
  | _, none => none

/-- Whether the limit of the waits is of use: without a backoff it is never looked at. -/
def check (p : RetryPolicy) : Except Fault Unit :=
  if (Number.int 0).lt p.backoff && p.longestWait.toDouble?.isNone then
    .error (.overflow .conversion)
  else .ok ()

/-- The wait after the attempt of a number, counted from one: the limit if the doubled backoff is
out of range. -/
def wait (p : RetryPolicy) (number : Nat) : Double :=
  let limit := p.longestWait.toDouble?.getD (.infinite false)
  if (Number.int 0).lt p.backoff then
    match doubled p.backoff (number - 1) with
    | some wait => ((Number.int 0).max (wait.min (.real limit))).toDouble?.getD (.infinite false)
    | none => limit
  else .zero

def event (number : Nat) (fault : Fault) (wait : Double) : Event :=
  ⟨.warning, "retrying_operation",
    [("attempt", number), ("exception_type", fault.kind.name),
      ("exception_message", fault.message), ("wait_time", wait)]⟩

end RetryPolicy

/-- Makes the attempt of a number and, after it, up to `left` more. Between two attempts `rest` is
told the number and the fault of the first one and how long to wait. -/
def retryFrom {σ α : Type} (p : RetryPolicy) (body : Nat → ExceptT Fault (StateM σ) α)
    (rest : Nat → Fault → Double → ExceptT Fault (StateM σ) Unit) :
    (left number : Nat) → ExceptT Fault (StateM σ) α
  | 0, number => body number
  | left + 1, number => do
    match ← attempt (body number) with
    | .ok value => return value
    | .error fault =>
      if p.covers fault then
        rest number fault (p.wait number)
        retryFrom p body rest left (number + 1)
      else throw fault

/-- Logs that there will be another attempt, and waits. -/
def Act.rest (number : Nat) (fault : Fault) (wait : Double) : Act Unit := do
  record (RetryPolicy.event number fault wait)
  if Double.zero.lt wait then pause (wait.toRat?.getD 0) else giveWay

/-- Makes at most `attempts` attempts, of which there must be one. -/
def Act.retry {α : Type} (attempts : Int) (p : RetryPolicy) (body : Nat → Act α) : Act α :=
  if attempts < 1 then throw (.invalid (.attempts attempts))
  else do
    ofExcept p.check
    retryFrom p body Act.rest (attempts.toNat - 1) 1

end Remedy

import Remedy.Fixer

/-!
The fixers of a program: at most one for each root cause.
-/

set_option autoImplicit false

namespace Remedy

/-- Fixers by root cause, in the order of registration. -/
abbrev Registry := List (RootCause × Fixer)

namespace Registry

def find? (r : Registry) (cause : RootCause) : Option Fixer :=
  match r with
  | [] => none
  | (c, fixer) :: rest => if c = cause then some fixer else find? rest cause

def has (r : Registry) (cause : RootCause) : Bool := (r.find? cause).isSome

/-- The root causes that have a fixer, in the order in which they are remedied. -/
def causes (r : Registry) : List RootCause := RootCause.all.filter r.has

/-- The fixer under the name of a root cause. -/
def get (r : Registry) (name : String) : Except Fault Fixer :=
  match RootCause.ofName? name with
  | none => .error (.unknownCause name)
  | some cause =>
    match r.find? cause with
    | some fixer => .ok fixer
    | none => .error (.noFixer cause)

/-- The root cause of a name. -/
def causeOf (name : Json) : Except Invalid RootCause :=
  match name with
  | .str s =>
    match RootCause.ofName? s with
    | some cause => .ok cause
    | none => .error (.member name "RootCause")
  | _ => .error (.member name "RootCause")

/-- Adds a fixer, none standing for something that cannot fix. -/
def add (r : Registry) (name : Json) (fixer : Option Fixer) :
    Except Invalid (RootCause × Registry) := do
  let cause ← causeOf name
  if r.has cause then .error (.registered cause)
  else
    match fixer with
    | none => .error (.noFixMethod cause)
    | some fixer => .ok (cause, r ++ [(cause, fixer)])

/-- Adds a fixer and logs that it was added. -/
def register (r : Registry) (name : Json) (fixer : Option Fixer) : Act Registry := do
  match r.add name fixer with
  | .error cause => throw (.invalid cause)
  | .ok (cause, r) =>
    Act.log .debug "fixer_registered" [("root_cause", cause.name)]
    return r

end Registry

end Remedy

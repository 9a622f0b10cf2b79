import Remedy.Fault

/-!
The log. An event has a level, a name and fields; values bound to the log are added to each event
that is written while they are bound, a field of the event standing before a bound value of the same
name. A sink says from which level on events are printed, and whether each is one line of JSON.
-/

set_option autoImplicit false

namespace Remedy

inductive LogLevel where
  | debug
  | info
  | warning
  | error
  | critical
  deriving DecidableEq, Repr, Inhabited

namespace LogLevel

def all : List LogLevel := [.debug, .info, .warning, .error, .critical]

def name : LogLevel → String
  | .debug => "debug"
  | .info => "info"
  | .warning => "warning"
  | .error => "error"
  | .critical => "critical"

def upperName : LogLevel → String
  | .debug => "DEBUG"
  | .info => "INFO"
  | .warning => "WARNING"
  | .error => "ERROR"
  | .critical => "CRITICAL"

def rank : LogLevel → Nat
  | .debug => 10
  | .info => 20
  | .warning => 30
  | .error => 40
  | .critical => 50

end LogLevel

inductive LogFormat where
  | json
  | console
  deriving DecidableEq, Repr, Inhabited

def LogFormat.name : LogFormat → String
  | .json => "json"
  | .console => "console"

structure Event where
  level : LogLevel
  name : String
  fields : List (String × Json)
  deriving Repr

/-- Where printed events go, besides the error stream. -/
structure Sink where
  level : LogLevel
  format : LogFormat
  file : Option Route
  deriving Repr

structure Journal where
  /-- What is bound to the log, in the order of binding. -/
  bound : List (String × Json) := []
  /-- Every event, the last one first. -/
  events : List Event := []
  sink : Option Sink := none
  /-- The events that the sink let through as JSON, the last one first. -/
  printed : List Event := []
  deriving Repr

namespace Journal

def bind (j : Journal) (name : String) (value : Json) : Journal :=
  { j with bound := Json.insert name value j.bound }

def unbind (j : Journal) (name : String) : Journal :=
  { j with bound := j.bound.filter (·.1 != name) }

/-- The event with what is bound to the log. -/
def inContext (j : Journal) (event : Event) : Event :=
  { event with
    fields := event.fields ++ j.bound.filter fun b => (Json.lookup b.1 event.fields).isNone }

/-- Whether the sink prints events of a level as lines of JSON. -/
def prints (j : Journal) (level : LogLevel) : Bool :=
  match j.sink with
  | some sink => sink.format = .json && decide (sink.level.rank ≤ level.rank)
  | none => false

def record (j : Journal) (event : Event) : Journal :=
  { j with
    events := j.inContext event :: j.events
    printed := if j.prints event.level then j.inContext event :: j.printed else j.printed }

end Journal

def serviceName : String := "error-resolver"

/-- The fields of an event by name, its own name and level among them. -/
def Event.json (e : Event) : Json :=
  .obj (Json.insert "event" e.name (Json.insert "level" e.level.name e.fields))

/-- One printed line: the event and the service it comes from. -/
def Event.line (e : Event) : Json :=
  .obj (Json.insert "event" e.name (Json.insert "level" e.level.name
    (Json.insert "service" serviceName e.fields)))

end Remedy

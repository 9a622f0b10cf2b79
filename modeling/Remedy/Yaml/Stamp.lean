import Remedy.Calendar
import Remedy.Config.Setting
import Remedy.Yaml.Token

/-!
Dates and moments as YAML documents write them. Months, days and hours may be written with one digit
unless a date stands alone.
-/

set_option autoImplicit false

namespace Remedy.Yaml

structure Stamp where
  year : Nat
  month : Nat
  day : Nat
  clock : Option Calendar.Clock := none
  /-- The minutes by which the time is offset. -/
  offset : Option Int := none

namespace Stamp

/-- Takes a number of one or two digits off the front. -/
def short? (cs : List Char) : Option (Nat × List Char) :=
  let ds := (cs.take 2).takeWhile isDigit
  if ds.isEmpty then none else some (numeral 10 ds, cs.drop ds.length)

def dropMark? (mark : Char) : List Char → Option (List Char)
  | c :: rest => if c = mark then some rest else none
  | [] => none

def isBlank (c : Char) : Bool := c == ' ' || c == '\t'

/-- The minutes of an offset. Nothing stands for no offset. -/
def readZone (cs : List Char) : Option (Option Int) :=
  if cs.isEmpty then some none
  else
    match cs.dropWhile isBlank with
    | ['Z'] => some (some 0)
    | sign :: rest => do
      if sign ≠ '+' ∧ sign ≠ '-' then none
      let (hours, rest) ← short? rest
      let minutes ← match rest with
        | [] => some 0
        | [':', a, b] => if isDigit a ∧ isDigit b then some (numeral 10 [a, b]) else none
        | _ => none
      let offset : Int := (60 * hours + minutes : Nat)
      return some (if sign = '-' then -offset else offset)
    | [] => none

/-- The time behind a date, and its offset. -/
def readClock (cs : List Char) : Option (Calendar.Clock × Option Int) := do
  let (hour, cs) ← short? cs
  let (minute, cs) ← Calendar.digits? 2 (← dropMark? ':' cs)
  let (second, cs) ← Calendar.digits? 2 (← dropMark? ':' cs)
  let (micro, cs) := match cs with
    | '.' :: rest =>
      let digits := rest.takeWhile isDigit
      (((Calendar.readFraction digits).map (·.1)).getD 0, rest.drop digits.length)
    | rest => (0, rest)
  return ({ hour, minute, second, micro }, ← readZone cs)

/-- The date or moment that a text writes. -/
def read (cs : List Char) : Option Stamp := do
  let (year, cs) ← Calendar.digits? 4 cs
  let (month, cs) ← short? (← dropMark? '-' cs)
  let (day, cs) ← short? (← dropMark? '-' cs)
  match cs with
  | [] => return { year, month, day }
  | c :: rest => do
    if c ≠ 'T' ∧ c ≠ 't' ∧ !isBlank c then none
    let (clock, offset) ← readClock (if isBlank c then rest.dropWhile isBlank else rest)
    return { year, month, day, clock := some clock, offset }

/-- Whether a plain scalar is a date or a moment. -/
def isPlain (cs : List Char) : Bool :=
  (read cs).any fun s => s.clock.isSome || cs.length == 10

/-- How messages show an offset. -/
def zoneText (minutes : Int) : String :=
  if minutes = 0 then "datetime.timezone.utc"
  else s!"datetime.timezone({Calendar.spanText (minutes * 60000000)})"

/-- How messages show a date or a moment: of the second and its fraction only what is needed. -/
def shown (s : Stamp) : String :=
  let listed (ns : List Nat) : String := String.intercalate ", " (ns.map toString)
  let date := [s.year, s.month, s.day]
  match s.clock with
  | none => s!"datetime.date({listed date})"
  | some clock =>
    let small :=
      if clock.micro ≠ 0 then [clock.second, clock.micro]
      else if clock.second ≠ 0 then [clock.second]
      else []
    let zone := match s.offset with
      | none => ""
      | some minutes => s!", tzinfo={zoneText minutes}"
    s!"datetime.datetime({listed (date ++ [clock.hour, clock.minute] ++ small)}{zone})"

/-- The value of a date or a moment, if there is one in the calendar. -/
def value (s : Stamp) : Except Invalid Setting :=
  (Calendar.check (s.year, s.month, s.day) (s.clock.getD {}) (s.offset.getD 0 * 60000000)).map
    fun _ => .other s.shown

end Stamp

end Remedy.Yaml

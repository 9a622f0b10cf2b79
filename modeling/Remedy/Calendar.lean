import Remedy.Fault

/-!
Dates and times of the Gregorian calendar. `stampText` writes a moment, given in nanoseconds since
1970, and `checkStamp` says whether a text is a date, with or without a time and an offset, in one
of the usual numeric forms. Such a text is read byte by byte: any character may stand between the
date and the time, whereas a stray one elsewhere counts by its bytes.
-/

set_option autoImplicit false

namespace Remedy.Calendar

def isLeap (year : Nat) : Bool := year % 4 == 0 && (year % 100 != 0 || year % 400 == 0)

def monthDays (year month : Nat) : Nat :=
  if month = 2 then (if isLeap year then 29 else 28)
  else if [4, 6, 9, 11].contains month then 30
  else 31

/-- Days from the first day of year one to the first day of a year. -/
def daysBefore (year : Nat) : Nat :=
  let past := year - 1
  365 * past + past / 4 - past / 100 + past / 400

/-- The month and day of a day counted from the first of a year's month on. -/
def monthAndDay (year : Nat) : (fuel month day : Nat) → Nat × Nat
  | 0, month, day => (month, day + 1)
  | fuel + 1, month, day =>
    if day < monthDays year month then (month, day + 1)
    else monthAndDay year fuel (month + 1) (day - monthDays year month)

/-- The year, month and day of a day counted from the first day of year one. -/
def ofDays (days : Nat) : Nat × Nat × Nat :=
  let guess := days / 366 + 1
  let year := ((List.range 40).map (guess + ·)).foldl
    (fun best year => if daysBefore year ≤ days then year else best) guess
  let (month, day) := monthAndDay year 11 1 (days - daysBefore year)
  (year, month, day)

def padded (places n : Nat) : String :=
  let ds := Nat.toDigits 10 n
  String.ofList (List.replicate (places - ds.length) '0' ++ ds)

/-- Year, month, day, hour, minute, second and microsecond of a moment. -/
def fields (nanoseconds : Int) : List Nat :=
  let micros := nanoseconds.toNat / 1000
  let secs := micros / 1000000
  let (year, month, day) := ofDays (daysBefore 1970 + secs / 86400)
  [year, month, day, secs / 3600 % 24, secs / 60 % 60, secs % 60, micros % 1000000]

/-- A moment with its parts set apart, in the zone of the zero meridian. -/
def stampText (nanoseconds : Int) : String :=
  match fields nanoseconds with
  | [year, month, day, hour, minute, second, micro] =>
    s!"{padded 4 year}-{padded 2 month}-{padded 2 day}T{padded 2 hour}:{padded 2 minute}:" ++
      s!"{padded 2 second}" ++ (if micro = 0 then "" else s!".{padded 6 micro}") ++ "+00:00"
  | _ => ""

/-- A moment to the second, without marks between its parts. -/
def compactText (nanoseconds : Int) : String :=
  match fields nanoseconds with
  | [year, month, day, hour, minute, second, _] =>
    s!"{padded 4 year}{padded 2 month}{padded 2 day}T{padded 2 hour}{padded 2 minute}" ++
      s!"{padded 2 second}Z"
  | _ => ""

/-! ### Reading -/

def isDigit (c : Char) : Bool := '0' ≤ c && c ≤ '9'

/-- Takes a number of so many digits off the front. -/
def digits? (count : Nat) (cs : List Char) : Option (Nat × List Char) :=
  let ds := cs.take count
  if ds.length = count ∧ ds.all isDigit then some (Json.natOf ds, cs.drop count) else none

/-- The position at which the time starts, separator included. -/
def datePart (cs : List Char) : Option Nat :=
  let at? (i : Nat) : Char := (cs[i]?).getD ' '
  if cs.length < 7 then none
  else if cs.length = 7 then some 7
  else if at? 4 = '-' then
    if at? 5 = 'W' then
      if cs.length > 8 ∧ at? 8 = '-' then
        if cs.length = 9 then none
        else if cs.length > 10 ∧ isDigit (at? 10) then some 8
        else some 10
      else some 8
    else some 10
  else if at? 4 = 'W' then
    let pos := 7 + ((cs.drop 7).takeWhile isDigit).length
    some (if pos < 9 then pos else if pos % 2 = 0 then 7 else 8)
  else some 8

/-- The weekday, Monday first from zero, of the first day of a year. -/
def firstWeekday (year : Nat) : Nat := daysBefore year % 7

/-- Whether a year has a week of a number. -/
def hasWeek (year week : Nat) : Bool :=
  1 ≤ week && (week < 53 ||
    (week == 53 && (firstWeekday year == 3 || (firstWeekday year == 2 && isLeap year))))

/-- Year, month and day of a day in a week of a year; the first week is the one with the first
Thursday. A week before year one has no month. -/
def ofWeek (year week day : Nat) : Nat × Nat × Nat :=
  let start := daysBefore year
  let weekday := firstWeekday year
  let monday := if 3 < weekday then start + 7 - weekday else start - weekday
  if year = 0 then (1, 0, 1) else ofDays (monday + 7 * (week - 1) + (day - 1))

/-- Year, month and day of a date that is written. -/
def readDate (cs : List Char) : Option (Nat × Nat × Nat) := do
  let (year, cs) ← digits? 4 cs
  let (apart, cs) := match cs with
    | '-' :: rest => (true, rest)
    | rest => (false, rest)
  match cs with
  | 'W' :: rest =>
    let (week, rest) ← digits? 2 rest
    let (day, rest) ← match apart, rest with
      | _, [] => some (1, [])
      | true, '-' :: more => digits? 1 more
      | true, _ => none
      | false, more => digits? 1 more
    if rest.isEmpty ∧ hasWeek year week ∧ 1 ≤ day ∧ day ≤ 7 then some (ofWeek year week day)
    else none
  | rest =>
    let (month, rest) ← digits? 2 rest
    let rest ← match apart, rest with
      | true, '-' :: more => some more
      | true, _ => none
      | false, more => some more
    let (day, rest) ← digits? 2 rest
    if rest.isEmpty then some (year, month, day) else none

/-- The millionths that the digits of a fraction write, of which six count, and the rest. -/
def readFraction (cs : List Char) : Option (Nat × List Char) :=
  let ds := cs.take 6
  if ds.all isDigit then some (Json.natOf ds * Nat.pow 10 (6 - ds.length), cs.dropWhile isDigit)
  else none

structure Clock where
  hour : Nat := 0
  minute : Nat := 0
  second : Nat := 0
  micro : Nat := 0

def Clock.micros (c : Clock) : Nat :=
  ((c.hour * 60 + c.minute) * 60 + c.second) * 1000000 + c.micro

/-- The clock with the part that still has `left` parts behind it. -/
def Clock.setPart (c : Clock) (left n : Nat) : Clock :=
  match left with
  | 0 => { c with second := n }
  | 1 => { c with minute := n }
  | _ => { c with hour := n }

/-- Hours, minutes and seconds as far as they are given, and what is left of the text behind them.
Where the first two are not set apart by a colon, the others are not either, and a fraction needs no
point. -/
def readParts (clock : Clock) (apart : Bool) : (left : Nat) → List Char → Option (Clock × List Char)
  | 0, cs => (readFraction cs).map fun (micro, rest) => ({ clock with micro }, rest)
  | left + 1, cs => do
    let (n, rest) ← digits? 2 cs
    let clock := clock.setPart left n
    match rest with
    | [] => return (clock, [])
    | [c] => return (clock, [c])
    | c :: more =>
      let apart := if left = 2 then c == ':' else apart
      if c = '.' ∨ c = ',' then readParts clock apart 0 more
      else if apart && c != ':' then none
      else readParts clock apart left (if apart then more else rest)

/-- Whether nothing more is to be read; what stands behind a zero is not. -/
def isOver (cs : List Char) : Bool := cs.head?.all (· == '\x00')

/-- A time and the millionths of a second by which it is offset. -/
def readTime (cs : List Char) : Option (Clock × Int) := do
  let isZone (c : Char) : Bool := c == '+' || c == '-' || c == 'Z'
  let (clock, rest) ← readParts {} true 3 (cs.takeWhile (!isZone ·))
  match cs.dropWhile (!isZone ·) with
  | [] => if isOver rest then return (clock, 0) else none
  | 'Z' :: more => if isOver more then return (clock, 0) else none
  | sign :: zone =>
    let (offset, rest) ← readParts {} true 3 zone
    if isOver rest then return (clock, if sign = '-' then -offset.micros else offset.micros)
    else none

/-- Takes the mark between the date and the time off the front of some bytes: one character. -/
def dropMark (bytes : List Char) : List Char :=
  let first := (bytes.head?.getD ' ').toNat
  bytes.drop (if first < 0x80 then 1 else if first < 0xE0 then 2 else if first < 0xF0 then 3 else 4)

def dayMicros : Nat := 86400000000

/-- A span of time in days, seconds and millionths, of which only the days may be negative. -/
def spanText (micros : Int) : String :=
  let days := micros.fdiv dayMicros
  let within := (micros.fmod dayMicros).toNat
  let parts : List (String × Int) :=
    [("days", days), ("seconds", (within / 1000000 : Nat)),
      ("microseconds", (within % 1000000 : Nat))]
  let shown := (parts.filter (·.2 ≠ 0)).map fun (name, n) => s!"{name}={n}"
  "datetime.timedelta(" ++ String.intercalate ", " shown ++ ")"

/-- What is wrong with a date, a time of that day and the millionths by which it is offset. -/
def check (date : Nat × Nat × Nat) (clock : Clock) (offset : Int) : Except Invalid Unit :=
  let (year, month, day) := date
  if dayMicros ≤ offset.natAbs then
    .error (.outOfRange ("offset must be a timedelta strictly between " ++
      s!"-timedelta(hours=24) and timedelta(hours=24), not {spanText offset}."))
  else if year = 0 ∨ 9999 < year then .error (.outOfRange s!"year {year} is out of range")
  else if month < 1 ∨ 12 < month then .error (.outOfRange "month must be in 1..12")
  else if day < 1 ∨ monthDays year month < day then
    .error (.outOfRange "day is out of range for month")
  else if 23 < clock.hour then .error (.outOfRange "hour must be in 0..23")
  else if 59 < clock.minute then .error (.outOfRange "minute must be in 0..59")
  else if 59 < clock.second then .error (.outOfRange "second must be in 0..59")
  else .ok ()

/-- What is wrong with a text that should be a date or a moment. -/
def checkStamp (text : String) : Except Invalid Unit := do
  let cs := (Text.encode text).map fun b => Char.ofNat b.toNat
  let parts := do
    let split ← datePart cs
    let date ← readDate (cs.take split)
    let time ← if split < cs.length then readTime (dropMark (cs.drop split)) else some ({}, 0)
    return (date, time)
  match parts with
  | none => .error (.date text)
  | some (date, clock, offset) => check date clock offset

end Remedy.Calendar

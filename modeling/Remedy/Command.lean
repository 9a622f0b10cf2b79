import Remedy.Json.Record
import Remedy.Shell.Run
import Remedy.Text.Blank

/-!
Commands that the program runs: a program with its arguments, never a line for a shell, and always
under a timeout. What a command prints is read as text, whatever it is; a program that does not
exist and one that takes too long are faults of their own, while a program that fails only does so
by its return code.
-/

set_option autoImplicit false

namespace Remedy

structure CommandResult where
  stdout : String
  stderr : String
  returnCode : Int
  command : List String
  deriving Repr

namespace CommandResult

def success (r : CommandResult) : Bool := r.returnCode = 0

/-- What was printed to either stream. -/
def output (r : CommandResult) : String :=
  if r.stdout.isEmpty then r.stderr
  else if r.stderr.isEmpty then r.stdout
  else s!"{r.stdout}\n{r.stderr}"

end CommandResult

/-- A command and how it is to be run. -/
structure Invocation where
  words : List String
  directory : Option Path := none
  timeout : Number := seconds 60
  /-- All variables of the program; those of the site if none are given. -/
  bindings : Option (List (String × String)) := none
  /-- Whether a return code other than zero is a fault. -/
  mustSucceed : Bool := false
  deriving Repr

namespace Invocation

/-- The words of a command given as a value. -/
def wordsOf : Json → Except Fault (List String)
  | .str _ => .error (.command .shellText)
  | j =>
    match j.parts? with
    | some parts => .ok (parts.map Json.shown)
    | none => .error (.misuse .wrongType)

/-- What is wrong with the words of a command. -/
def flaw? (words : List String) : Option CommandFault :=
  if (Text.strip (words.headD "").toList).isEmpty then some .empty
  else if words.any fun word => word.toList.contains '\x00' then some .holdsNul
  else none

/-- Whether there is such a program; if it is none of the installed ones, it has to be a file. -/
def isKnown (s : Site) (name : String) : Except FileError Bool :=
  if (Shell.reachesPrograms s.bindings && Shell.isInstalled name) ||
      (Shell.installedName? name).any Shell.isInstalled then .ok true
  else ((FileAct.isFile (Path.ofString name)).run s.files).1

/-- The most milliseconds that can be waited for at once. -/
def longestWait : Int := 2147483647

/-- The most milliseconds that a clock can show. -/
def longestClock : Int := 9223372036854

/-- Whether a timeout is too long to be waited for. -/
def excess? (timeout : Number) : Option Overflow :=
  match timeout, timeout.toRat? with
  | .real (.infinite false), _ => some .endless
  | _, none => none
  | _, some time =>
    let milliseconds := (time * 1000).ceil
    if longestClock < milliseconds then some .clock
    else if longestWait < milliseconds then some .wait
    else none

/-- The shortest timeout in which a program can be started at all. -/
def shortestTimeout : Moment := 1 / 1000

/-- What is wrong with the variables that a program is given. -/
def bindingFlaw? (bindings : List (String × String)) : Option Fault :=
  if bindings.any fun b => b.1.toList.contains '=' then
    some (.raised .value "illegal environment variable name")
  else if bindings.any fun b => (b.1 ++ b.2).toList.contains '\x00' then some (.invalid .nul)
  else none

/-- What keeps a program from being started, though its name is known. -/
def obstacle? (i : Invocation) (files : FileTree) (bindings : List (String × String))
    (name : String) : Option Fault :=
  let missing := some (Fault.command (.notFound name))
  let place := match i.directory with
    | some p => files.walk p
    | none => .ok (.at files.directory (.directory 0))
  match place with
  | .ok (.at route (.directory _)) =>
    if (Shell.installedName? name).any Shell.isInstalled then none
    else if name.toList.contains '/' then
      match (FileAct.read (Path.ofString name)).run { files with directory := route } with
      | (.ok content, _) =>
        if Shell.isScript (Text.decode content) then none
        else some (.raised .os s!"[Errno 8] Exec format error: {Text.quoted name}")
      | (.error _, _) => missing
    else if Shell.isInstalled name && Shell.reachesPrograms bindings then none
    else missing
  | .ok (.at _ _) | .error .notDirectory =>
    some (.file ⟨.notDirectory, (i.directory.getD ⟨.slash, []⟩).text, none⟩)
  | _ => missing

/-- Text that a program printed. -/
def readOutput (content : Text.Bytes) : String :=
  String.ofList (Text.lineFeeds (Text.decode content).toList)

def notFoundEvent (name : String) : Event := ⟨.warning, "command_not_found", [("executable", name)]⟩

/-- What is to be made of the ending of a program that took some time. -/
def conclude (i : Invocation) (opening : List Event) (ending : Except Shell.Ending Nat)
    (after : Shell.Session) : Course CommandResult :=
  let words := i.words
  let finish (code : Int) : Course CommandResult :=
    let r : CommandResult :=
      ⟨readOutput after.output, readOutput after.errors, code, words⟩
    { delay := after.spent
      turns := 2
      outcome :=
        if i.mustSucceed && !r.success then
          .error (.command (.failed code (if r.stderr.isEmpty then r.stdout else r.stderr)))
        else .ok r
      opening := opening
      closing := [⟨.debug, "command_finished",
        [("command", .strs words), ("return_code", code)]⟩] }
  match ending with
  | .ok status => finish status
  | .error (.left status) => finish status
  | .error (.killed signal) => finish (-(signal : Int))
  | .error .overdue =>
    { delay := Moment.ofSeconds i.timeout
      turns := 2
      outcome := .error (.command (.timedOut i.timeout words))
      opening := opening
      closing := [⟨.error, "command_timeout",
        [("command", .strs words), ("timeout", i.timeout)]⟩] }

/-- Runs a program that is known. -/
def start (i : Invocation) (opening : List Event) : Work CommandResult := fun site =>
  let name := i.words.headD ""
  let bindings := i.bindings.getD site.bindings
  match bindingFlaw? (i.bindings.getD []) <|> i.obstacle? site.files bindings name with
  | some fault =>
    let noted := if fault.isA .commandNotFound then [notFoundEvent name] else []
    ({ turns := 2, outcome := .error fault, opening := opening, closing := noted }, site)
  | none =>
    let home := match i.directory.map site.files.walk with
      | some (.ok (.at route _)) => route
      | _ => site.files.directory
    let limit := Moment.ofSeconds i.timeout
    let session : Shell.Session :=
      { files := { site.files with directory := home }, bindings := bindings, limit := some limit }
    let (ending, after) :=
      if limit < shortestTimeout then (.error .overdue, session)
      else Shell.start name (i.words.drop 1) session
    (i.conclude opening ending after,
      { site with files := { after.files with directory := site.files.directory } })

/-- Runs a command. -/
def run (i : Invocation) : Work CommandResult := fun site =>
  let name := i.words.headD ""
  match flaw? i.words, isKnown site name with
  | some cause, _ => (.failed (.command cause), site)
  | none, .error e => (.failed (.file e), site)
  | none, .ok false =>
    ({ outcome := .error (.command (.notFound name)), opening := [notFoundEvent name] }, site)
  | none, .ok true =>
    let opening : List Event := [⟨.debug, "executing_command",
      [("command", .strs i.words), ("cwd", Json.ofOption (fun p => .str p.text) i.directory),
        ("timeout", i.timeout)]⟩]
    if i.timeout.toDouble?.isNone then
      ({ outcome := .error (.overflow .conversion), opening := opening }, site)
    else
      match excess? i.timeout with
      | some cause =>
        ({ turns := 2, outcome := .error (.overflow cause), opening := opening }, site)
      | none => i.start opening site

end Invocation

end Remedy

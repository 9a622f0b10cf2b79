import Remedy.Shell.Format
import Remedy.Shell.Session

/-!
The programs that are at hand, and the commands that a shell carries out itself.
-/

set_option autoImplicit false

namespace Remedy.Shell

open ShellAct

/-- Writes the arguments; the shell's own command replaces escapes. -/
def echo (escapes : Bool) : Program := fun arguments => do
  let bare := arguments.head? == some "-n"
  let text := String.intercalate " " (if bare then arguments.drop 1 else arguments)
  let (content, stopped) :=
    if escapes then unescape (text.length + 1) text.toList else (Text.encode text, false)
  print (if bare || stopped then content else content ++ [10])
  return 0

def printf : Program
  | [] => do
    complainHere "printf: usage: printf format [arg ...]"
    return 2
  | format :: arguments => do
    match readFormat (format.length + 1) format.toList with
    | none => do
      complainHere s!"printf: {format}: invalid directive"
      return 2
    | some directives =>
      let (content, flawed) := writeAll directives (arguments.length + 1) arguments
      print content
      flawed.forM fun argument => complainHere s!"printf: {argument}: expected numeric value"
      return if flawed.isEmpty then 0 else 1

/-- Writes what is in files, or what comes in. -/
def cat : Program := fun arguments => do
  let names := if arguments.isEmpty then ["-"] else arguments
  names.foldlM (fun status name => do
    if name = "-" then
      print (← get).input
      modify fun s => { s with input := [] }
      return status
    else
      match ← tryFiles (FileAct.read (Path.ofString name)) with
      | .ok content =>
        print content
        return status
      | .error e =>
        complain s!"cat: {name}: {e.errno.message}"
        return 1) 0

/-- The time that an argument writes, with the letter of a unit. -/
def timeOf (argument : String) : Option Moment :=
  let cs := argument.toList
  let (cs, unit) : List Char × Nat :=
    match cs.getLast? with
    | some 's' => (cs.dropLast, 1)
    | some 'm' => (cs.dropLast, 60)
    | some 'h' => (cs.dropLast, 3600)
    | some 'd' => (cs.dropLast, 86400)
    | _ => (cs, 1)
  (Decimal.read cs).bind fun x =>
    x.toRat?.bind fun time => if time < 0 then none else some (time * unit)

def sleepProgram : Program := fun arguments => do
  match arguments.mapM timeOf with
  | some (time :: times) => do
    ShellAct.sleep (times.foldl (· + ·) time)
    return 0
  | _ => do
    match arguments with
    | [] => complain "sleep: missing operand"
    | _ => complain ("sleep: invalid time interval ‘" ++ String.intercalate " " arguments ++ "’")
    complain "Try 'sleep --help' for more information."
    return 1

/-- Whether something with a property is at a path. -/
def fileHolds (name : String) (property : Node → Bool) : ShellAct Bool := do
  match ← tryFiles (FileAct.holds (Path.ofString name) property) with
  | .ok b => return b && !name.isEmpty
  | .error _ => return false

def isExecutable : Node → Bool
  | .file _ mode => mode % 2 == 1 || mode / 8 % 2 == 1 || mode / 64 % 2 == 1
  | _ => true

def isFilled : Node → Bool
  | .file content _ => !content.isEmpty
  | _ => true

/-- The property of a file that a letter asks for. -/
def fileProperty? (letter : String) : Option (Node → Bool) :=
  match letter with
  | "-e" | "-r" | "-w" => some fun _ => true
  | "-f" => some Node.isFile
  | "-d" => some Node.isDirectory
  | "-s" => some isFilled
  | "-x" => some isExecutable
  | _ => none

/-- The comparison of two numbers that a word asks for. -/
def numberRelation? (word : String) : Option (Int → Int → Bool) :=
  match word with
  | "-eq" => some fun a b => a == b
  | "-ne" => some fun a b => a != b
  | "-lt" => some fun a b => decide (a < b)
  | "-le" => some fun a b => decide (a ≤ b)
  | "-gt" => some fun a b => decide (b < a)
  | "-ge" => some fun a b => decide (b ≤ a)
  | _ => none

/-- The status of a condition under the name by which it is called. -/
def condition (name : String) : List String → ShellAct Nat
  | [] => return 1
  | [text] => return if text.isEmpty then 1 else 0
  | "!" :: arguments => do
    let status ← condition name arguments
    return if status = 0 then 1 else if status = 1 then 0 else status
  | [letter, text] => do
    match letter, fileProperty? letter with
    | _, some property => return if ← fileHolds text property then 0 else 1
    | "-n", none => return if text.isEmpty then 1 else 0
    | "-z", none => return if text.isEmpty then 0 else 1
    | _, none => do
      complainHere s!"{name}: {letter}: unexpected operator"
      return 2
  | [a, word, b] => do
    match word, numberRelation? word with
    | "=", _ => return if a = b then 0 else 1
    | "!=", _ => return if a = b then 1 else 0
    | _, some relation => do
      match integer? a, integer? b with
      | some m, some n => return if relation m n then 0 else 1
      | some _, none => do
        complainHere s!"{name}: Illegal number: {b}"
        return 2
      | none, _ => do
        complainHere s!"{name}: Illegal number: {a}"
        return 2
    | _, none => do
      complainHere s!"{name}: {word}: unexpected operator"
      return 2
  | first :: _ => do
    complainHere s!"{name}: {first}: unexpected operator"
    return 2

def bracket : Program := fun arguments => do
  if arguments.getLast? = some "]" then condition "[" arguments.dropLast
  else
    complainHere "[: missing ]"
    return 2

/-- The number of a signal, given by number or name. -/
def signalOf? (name : String) : Option Nat :=
  match name with
  | "HUP" | "1" => some 1
  | "INT" | "2" => some 2
  | "QUIT" | "3" => some 3
  | "ABRT" | "6" => some 6
  | "KILL" | "9" => some 9
  | "USR1" | "10" => some 10
  | "SEGV" | "11" => some 11
  | "USR2" | "12" => some 12
  | "PIPE" | "13" => some 13
  | "ALRM" | "14" => some 14
  | "TERM" | "15" => some 15
  | _ => none

/-- The number of the process of a shell, as far as a script can tell. -/
def ownNumber : String := "2"

/-- The variables with their values, or the values of some of them. -/
def printVariables (values : Bool) : Program := fun names => do
  let bindings := (← get).bindings
  if names.isEmpty then
    print (Text.encode (String.join (bindings.map fun (name, value) => s!"{name}={value}\n")))
    return 0
  else if values then
    let found := names.filterMap fun name => Json.lookup name bindings
    print (Text.encode (String.join (found.map (· ++ "\n"))))
    return if found.length = names.length then 0 else 1
  else
    complain ("env: ‘" ++ String.intercalate " " names ++ "’: No such file or directory")
    return 127

/-- The names in directories, hidden ones apart, and the names of files. -/
def listNames : Program := fun arguments => do
  let names := arguments.filter fun a => a.toList.head? != some '-'
  (if names.isEmpty then ["."] else names).foldlM (fun status name => do
    let p := Path.ofString name
    match ← tryFiles (FileAct.list p), ← tryFiles (FileAct.isFile p) with
    | .ok found, _ => do
      let shown := found.filter fun name => name.toList.head? != some '.'
      print (Text.encode (String.join (shown.map (· ++ "\n"))))
      return status
    | _, .ok true => do
      print (Text.encode (name ++ "\n"))
      return status
    | .error e, _ => do
      complain s!"ls: cannot access '{name}': {e.errno.message}"
      return 2) 0

/-- Takes variables away. -/
def unset : Program := fun names => do
  modify fun s => { s with bindings := s.bindings.filter fun v => !names.contains v.1 }
  return 0

/-- Sends a signal to the shell itself; there is no other process. -/
def kill : Program := fun arguments => do
  let (signal, targets) : Option Nat × List String :=
    match arguments with
    | "-s" :: name :: rest => (signalOf? name, rest)
    | first :: rest =>
      match first.toList with
      | '-' :: name => (signalOf? (String.ofList name), rest)
      | _ => (some 15, first :: rest)
    | [] => (none, [])
  match signal with
  | none => return 2
  | some signal => do
    if targets.contains ownNumber then throw (.killed signal)
    complainHere "kill: No such process"
    return 1

def workingDirectory : Program := fun _ => do
  print (Text.encode (Route.text (← get).files.directory ++ "\n"))
  return 0

/-- Changes files one by one; the first complaint decides about the status. -/
def onEach (name verb : String) (act : Path → FileAct Unit) : Program := fun arguments =>
  (arguments.filter fun a => !(a.toList.head? == some '-')).foldlM (fun status file => do
    match ← tryFiles (act (Path.ofString file)) with
    | .ok () => return status
    | .error e => do
      complain s!"{name}: cannot {verb} '{file}': {e.errno.message}"
      return 1) 0

def touch : Program := onEach "touch" "touch" fun p => do let _ ← FileAct.openEnd p

def makeDirectory : Program := fun arguments =>
  onEach "mkdir" "create directory" (fun p =>
    if arguments.contains "-p" then FileAct.makePath p true else FileAct.makeDirectory p) arguments

def remove : Program := fun arguments =>
  let flags := arguments.filter fun a => a.toList.head? == some '-'
  let has (c : Char) : Bool := flags.any fun a => a.toList.contains c
  onEach "rm" "remove" (fun p => do
    if has 'r' then
      if has 'f' || (← FileAct.present p) then FileAct.remove p else FileAct.unlink p
    else if has 'f' then FileAct.unlinkIfThere p
    else FileAct.unlink p) arguments

/-- Counts from one number to another. -/
def sequence : Program := fun arguments => do
  match arguments.mapM integer? with
  | some [last] => count 1 last
  | some [first, last] => count first last
  | _ => do
    complain "seq: missing operand"
    return 1
where
  count (first last : Int) : ShellAct Nat := do
    let numbers := (List.range (last - first + 1).toNat).map fun (n : Nat) => first + (n : Int)
    print (Text.encode (String.join (numbers.map fun n => s!"{n}\n")))
    return 0

def succeed : Program := fun _ => return 0
def fail : Program := fun _ => return 1

/-- Leaves the shell. -/
def leave : Program := fun arguments => do
  match arguments with
  | [] => throw (.left (← get).status)
  | text :: _ =>
    if !text.isEmpty && text.toList.all Char.isDigit then
      throw (.left (numberOf text.toList % 256))
    else
      complainHere s!"exit: Illegal number: {text}"
      throw (.left 2)

/-- Goes to another directory. -/
def changeDirectory : Program := fun arguments => do
  let name := arguments.headD ((Json.lookup "HOME" (← get).bindings).getD "/")
  match (← get).files.walk (Path.ofString name) with
  | .ok (.at route (.directory _)) =>
    modify fun s => { s with files := { s.files with directory := route } }
    return 0
  | _ => do
    complainHere s!"cd: can't cd to {name}"
    return 2

/-- Sets variables that are given with a value. -/
def exportAll : Program := fun arguments => do
  arguments.forM fun a => do
    let name := String.ofList (a.toList.takeWhile (· ≠ '='))
    match a.toList.dropWhile (· ≠ '=') with
    | _ :: value => modify fun s =>
        { s with bindings := Json.insert name (String.ofList value) s.bindings }
    | [] => pure ()
  return 0

/-- The commands that a shell carries out itself. -/
def ownCommands : List (String × Program) := [
  (":", succeed), ("true", succeed), ("false", fail), ("echo", echo true), ("printf", printf),
  ("test", condition "test"), ("[", bracket), ("kill", kill), ("pwd", workingDirectory),
  ("exit", leave), ("cd", changeDirectory), ("export", exportAll), ("unset", unset)]

/-- The programs besides the shell. -/
def programs : List (String × Program) := [
  ("true", succeed), ("false", fail), ("echo", echo false), ("printf", printf), ("cat", cat),
  ("sleep", sleepProgram), ("test", condition "test"), ("[", bracket), ("kill", kill),
  ("pwd", workingDirectory), ("touch", touch), ("mkdir", makeDirectory), ("rm", remove),
  ("seq", sequence), ("env", printVariables false), ("printenv", printVariables true),
  ("ls", listNames)]

end Remedy.Shell

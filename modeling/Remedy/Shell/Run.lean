import Remedy.Shell.Programs

/-!
Running scripts and programs. Words are expanded when their command runs: parameters and scripts in
words are replaced, and what comes of them outside of quotes is cut at blanks. A command that is no
program leaves the status 127. Shells may run shells, up to a depth.
-/

set_option autoImplicit false

namespace Remedy.Shell

open ShellAct

/-! ### Words -/

/-- The value of a parameter, if it is set. -/
def valueOf (s : Session) (name : String) : Option String :=
  match name with
  | "$" => some ownNumber
  | "?" => some (toString s.status)
  | "#" => some (toString (s.arguments.length - 1))
  | "@" | "*" => some (String.intercalate " " (s.arguments.drop 1))
  | _ =>
    if name.toList.all Char.isDigit then s.arguments[numberOf name.toList]?
    else Json.lookup name s.bindings

def expandUse (value : Option String) : Use → String
  | .value => value.getD ""
  | .orElse ifEmpty other =>
    match value with
    | some v => if ifEmpty && v.isEmpty then other else v
    | none => other
  | .instead unlessEmpty other =>
    match value with
    | some v => if unlessEmpty && v.isEmpty then "" else other
    | none => ""

/-- The fields of a word: those that are finished, and the one that is being written. -/
abbrev Fields := List String × Option (List Char)

def Fields.add (f : Fields) (cs : List Char) : Fields := (f.1, some (f.2.getD [] ++ cs))

def Fields.cut (f : Fields) : Fields :=
  match f.2 with
  | some cs => (f.1 ++ [String.ofList cs], none)
  | none => f

/-- Adds a text that is cut at blanks unless it is quoted. -/
def Fields.addValue (f : Fields) (quoted : Bool) (cs : List Char) : Fields :=
  if quoted then f.add cs
  else cs.foldl (fun f c => if c = ' ' ∨ c = '\t' ∨ c = '\n' then f.cut else f.add [c]) f

/-- Runs an action as a program of its own, with its own arguments and directory. -/
def apart (change : Session → Session) (act : ShellAct Nat) : ShellAct Nat := fun s =>
  let (outcome, after) := act (change s)
  let back : Session :=
    { after with
      files := { after.files with directory := s.files.directory }
      bindings := s.bindings
      arguments := s.arguments
      status := s.status }
  match outcome with
  | .error (.left status) => (.ok status, back)
  | outcome => (outcome, back)

/-- What a script prints, without line feeds at its end; `invoke` runs a program of a name. -/
def outputOf (invoke : String → Program) (script : List Char) : ShellAct (List Char) := do
  let s ← get
  let status ← apart (fun s => { s with output := [], first := .output })
    (invoke "sh" ("-c" :: String.ofList script :: s.arguments))
  let content := (← get).output
  modify fun after => { after with output := s.output, first := s.first, status := status }
  return ((Text.decode content).toList.reverse.dropWhile (· = '\n')).reverse

/-- The text of a piece. -/
def pieceText (invoke : String → Program) (piece : Piece) : ShellAct (List Char) := do
  match piece with
  | .text cs _ => return cs
  | .parameter name use _ => return (expandUse (valueOf (← get) name) use).toList
  | .output script _ => outputOf invoke script

/-- Adds a piece of a word. -/
def expandPiece (invoke : String → Program) (f : Fields) (piece : Piece) : ShellAct Fields := do
  let cs ← pieceText invoke piece
  match piece with
  | .text _ quoted => return if cs.isEmpty && !quoted then f else f.add cs
  | .parameter "@" _ true =>
    match (← get).arguments.drop 1 with
    | [] => return f
    | first :: rest =>
      return rest.foldl (fun f v => f.cut.add v.toList) (f.add first.toList)
  | .parameter _ _ quoted => return f.addValue quoted cs
  | .output _ quoted => return f.addValue quoted cs

/-- The fields of words. -/
def expand (invoke : String → Program) (words : List Word) : ShellAct (List String) := do
  return (← words.mapM fun w => do
    return (← w.foldlM (expandPiece invoke) (([], none) : Fields)).cut.1).flatten

/-- A word as one text. -/
def expandWhole (invoke : String → Program) (w : Word) : ShellAct String := do
  return String.ofList (← w.mapM (pieceText invoke)).flatten

/-! ### Redirections -/

def redirected (stream : Nat) (goal : Stream) (s : Session) : Session :=
  if stream = 1 then { s with first := goal } else { s with second := goal }

/-- What a shell says about a file that it cannot open. -/
def openingFault (verb file : String) (errno : Errno) : String :=
  s!"cannot {verb} {file}: " ++
    match errno with
    | .notFound => if verb = "create" then "Directory nonexistent" else "No such file"
    | errno => errno.message

/-- Opens what redirections name; false if that fails. -/
def openAll (invoke : String → Program) : List Redirect → ShellAct Bool
  | [] => return true
  | .duplicate stream target :: rest => do
    modify fun s => redirected stream (if target = 1 then s.first else s.second) s
    openAll invoke rest
  | .input file :: rest => do
    let name ← expandWhole invoke file
    match ← tryFiles (FileAct.read (Path.ofString name)) with
    | .ok content =>
      modify fun s => { s with input := content }
      openAll invoke rest
    | .error e =>
      complainHere (openingFault "open" name e.errno)
      return false
  | .output stream atEnd file :: rest => do
    let name ← expandWhole invoke file
    let p := Path.ofString name
    if name = "/dev/null" then
      modify (redirected stream (.file ["dev", "null"]))
      openAll invoke rest
    else
      match ← tryFiles (if atEnd then FileAct.openEnd p else FileAct.openEmpty p) with
      | .ok route =>
        modify (redirected stream (.file route))
        openAll invoke rest
      | .error e =>
        complainHere (openingFault "create" name e.errno)
        return false

/-- Runs a command with its redirections. -/
def withRedirects (invoke : String → Program) (redirects : List Redirect) (act : ShellAct Nat) :
    ShellAct Nat :=
  withStreams id do if ← openAll invoke redirects then act else return 2

/-! ### Programs -/

/-- Whether programs can be found under the variables. -/
def reachesPrograms (bindings : List (String × String)) : Bool :=
  match Json.lookup "PATH" bindings with
  | none => true
  | some path =>
    ((Text.pieces ':' path.toList).map String.ofList).any fun d => d == "/bin" || d == "/usr/bin"

/-- The name of a program in one of the directories of programs. -/
def installedName? (name : String) : Option String :=
  let p := Path.ofString name
  if p.isAbsolute && (p.names.dropLast == ["bin"] || p.names.dropLast == ["usr", "bin"]) then
    p.names.getLast?
  else none

def isInstalled (name : String) : Bool := name == "sh" || (programs.map Prod.fst).contains name

/-- The status of a program that was ended by a signal, as its shell sees it. -/
def heedSignal (act : ShellAct Nat) : ShellAct Nat :=
  tryCatch act fun ending =>
    match ending with
    | .killed signal => do
      if signal = 9 then complain "Killed"
      else if signal = 15 then complain "Terminated"
      return 128 + signal
    | ending => throw ending

/-- Runs commands. A command of settings alone has the status of the last script in its words. -/
def execute (invoke : String → Program) : Command → ShellAct Nat
  | .nothing => do return (← get).status
  | .simple settings words redirects => do
    let values ← settings.mapM fun (name, w) => do return (name, ← expandWhole invoke w)
    let assign (s : Session) : Session :=
      { s with bindings := values.foldl (fun vs (k, v) => Json.insert k v vs) s.bindings }
    match ← expand invoke words with
    | [] => do
      modify assign
      let ran := (words ++ settings.map Prod.snd).any fun w => w.any Piece.isOutput
      let last := (← get).status
      let status := if ran then last else 0
      finish (withRedirects invoke redirects (return status))
    | name :: arguments => do
      match Json.lookup name ownCommands with
      | some command => finish (withRedirects invoke redirects (command arguments))
      | none =>
        finish (withRedirects invoke redirects (heedSignal (apart assign (invoke name arguments))))
  | .both first second => do
    let _ ← execute invoke first
    execute invoke second
  | .ifDone first second => do
    let status ← execute invoke first
    if status = 0 then execute invoke second else return status
  | .ifFailed first second => do
    let status ← execute invoke first
    if status = 0 then return status else execute invoke second
  | .negated body => do
    let status ← execute invoke body
    finish (return if status = 0 then 1 else 0)
  | .choice condition yes no => do
    let status ← execute invoke condition
    if status = 0 then execute invoke yes else execute invoke no
  | .loop name words body => do
    (← expand invoke words).foldlM (fun _ value => do
      modify fun s => { s with bindings := Json.insert name value s.bindings }
      execute invoke body) 0
  | .group isApart body redirects =>
    finish (withRedirects invoke redirects
      (if isApart then apart id (execute invoke body) else execute invoke body))
  | .pipe first second => do
    let s ← get
    let _ ← heedSignal (apart (fun s => { s with output := [], first := .output })
      (execute invoke first))
    let between ← get
    modify fun b => { b with input := b.output, output := s.output, first := s.first,
                             spent := s.spent }
    let status ← heedSignal (apart id (execute invoke second))
    modify fun b => { b with spent := max b.spent between.spent, input := s.input }
    finish (return status)
where
  /-- Notes the status of a command. -/
  finish (act : ShellAct Nat) : ShellAct Nat := do
    let status ← act
    modify fun s => { s with status := status }
    return status

/-- Runs a script. -/
def runScript (invoke : String → Program) (script : String) : ShellAct Nat := do
  match tokens (script.length + 1) script.toList, readScript script with
  | _, some command => execute invoke command
  | none, none =>
    complainHere "Syntax error: Unterminated quoted string"
    return 2
  | some _, none =>
    complainHere "Syntax error"
    return 2

/-- The first line of a script that says which shell runs it. -/
def isScript (text : String) : Bool := Text.startsWith "#!/bin/sh".toList text.toList

mutual

/-- The shell itself. -/
def shell : (depth : Nat) → Program
  | 0, _ => return 2
  | depth + 1, arguments => do
    match arguments with
    | "-c" :: script :: rest =>
      apart (fun s => { s with arguments := if rest.isEmpty then ["sh"] else rest, status := 0 })
        (runScript (invoke depth) script)
    | ["-c"] => do
      complain s!"{← shellName}: 0: -c requires an argument"
      return 2
    | file :: rest => do
      match ← tryFiles (FileAct.read (Path.ofString file)) with
      | .ok content =>
        apart (fun s => { s with arguments := file :: rest, status := 0 })
          (runScript (invoke depth) (Text.decode content))
      | .error _ => do
        complain s!"{← shellName}: 0: cannot open {file}: No such file"
        return 2
    | [] => do
      let script := Text.decode (← get).input
      apart (fun s => { s with arguments := ["sh"], status := 0, input := [] })
        (runScript (invoke depth) script)

/-- Runs a program of a name, if there is one. -/
def invoke : (depth : Nat) → String → Program
  | depth, name, arguments => do
    if name.toList.contains '/' && (installedName? name).isNone then
      match ← tryFiles (FileAct.read (Path.ofString name)) with
      | .ok content =>
        if isScript (Text.decode content) then
          apart (fun s => { s with arguments := name :: arguments, status := 0 })
            (match depth with
              | 0 => return 2
              | depth + 1 => runScript (invoke depth) (Text.decode content))
        else
          complainHere s!"{name}: Exec format error"
          return 126
      | .error _ => do
        complainHere s!"{name}: not found"
        return 127
    else
      let short := (installedName? name).getD name
      let found := reachesPrograms (← get).bindings || (installedName? name).isSome
      match found, short == "sh", Json.lookup short programs with
      | true, true, _ =>
        match depth with
        | 0 => return 2
        | depth + 1 => shell depth arguments
      | true, false, some program => program arguments
      | _, _, _ => do
        complainHere s!"{name}: not found"
        return 127

end

/-- How many shells may run inside each other. -/
def shellDepth : Nat := 20

/-- How a program of a name ends. -/
def start (name : String) (arguments : List String) : ShellAct Nat :=
  apart (fun s => { s with arguments := ["sh"] }) (invoke shellDepth name arguments)

end Remedy.Shell

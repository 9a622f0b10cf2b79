import Remedy.Shell.Word

/-!
Scripts. A script is cut into tokens, and these are read into a command: simple commands, joined by
pipes, by conditions and one after the other, choices and loops over words.
-/

set_option autoImplicit false

namespace Remedy.Shell

/-- Where a stream of a command comes from or goes. -/
inductive Redirect where
  | input (file : Word)
  /-- The stream of a number, into a file that is emptied first, or at its end. -/
  | output (stream : Nat) (atEnd : Bool) (file : Word)
  /-- The stream of a number, to where another one goes. -/
  | duplicate (stream target : Nat)
  deriving DecidableEq, Repr

inductive Command where
  /-- No command: the status stays as it is. -/
  | nothing
  | simple (settings : List (String × Word)) (words : List Word) (redirects : List Redirect)
  /-- One after the other. -/
  | both (first second : Command)
  /-- The second one if the first one succeeds. -/
  | ifDone (first second : Command)
  /-- The second one if the first one fails. -/
  | ifFailed (first second : Command)
  | pipe (first second : Command)
  | negated (body : Command)
  | choice (condition yes no : Command)
  | loop (name : String) (words : List Word) (body : Command)
  /-- In a shell of its own if `apart`. -/
  | group (apart : Bool) (body : Command) (redirects : List Redirect)
  deriving Repr, Inhabited

inductive Token where
  | word (w : Word)
  | mark (text : String)
  | redirect (r : Redirect)
  deriving DecidableEq, Repr

def marks : List String := ["&&", "||", ";", "\n", "|", "&", "(", ")"]

def takeMark? (cs : List Char) : Option (String × List Char) :=
  marks.findSome? fun mark =>
    if Text.startsWith mark.toList cs then some (mark, cs.drop mark.length) else none

def isSpace (c : Char) : Bool := c == ' ' || c == '\t'

/-- A redirection in front of the rest. -/
def takeRedirect? (cs : List Char) : Option (Redirect × List Char) :=
  let digits := cs.takeWhile Char.isDigit
  let stream := digits.foldl (fun n c => 10 * n + (c.toNat - 48)) 0
  let file (make : Word → Redirect) (rest : List Char) : Option (Redirect × List Char) :=
    match readWord (rest.dropWhile isSpace) with
    | some ([], _) => none
    | some (w, rest) => some (make w, rest)
    | none => none
  match digits, cs.drop digits.length with
  | _, '>' :: '&' :: c :: rest =>
    if c.isDigit then some (.duplicate (if digits.isEmpty then 1 else stream) (c.toNat - 48), rest)
    else none
  | _, '>' :: '>' :: rest => file (.output (if digits.isEmpty then 1 else stream) true) rest
  | _, '>' :: rest => file (.output (if digits.isEmpty then 1 else stream) false) rest
  | [], '<' :: rest => file .input rest
  | _, _ => none

/-- The tokens of a script, none if a quote is not closed or a redirection goes nowhere. -/
def tokens : (fuel : Nat) → List Char → Option (List Token)
  | 0, _ => none
  | _, [] => some []
  | fuel + 1, c :: rest =>
    if isSpace c then tokens fuel rest
    else if c = '#' then tokens fuel (rest.dropWhile (· ≠ '\n'))
    else if c = '\\' && rest.head? = some '\n' then tokens fuel (rest.drop 1)
    else
      match takeRedirect? (c :: rest), takeMark? (c :: rest) with
      | some (r, more), _ => (tokens fuel more).map (.redirect r :: ·)
      | none, some (mark, more) => (tokens fuel more).map (.mark mark :: ·)
      | none, none =>
        if c = '>' ∨ c = '<' then none
        else
          match readWord (c :: rest) with
          | some (w, more) => (tokens fuel more).map (.word w :: ·)
          | none => none

/-- The word of a token, if it is one without quotes. -/
def Token.bare? : Token → Option String
  | .word w => w.bare?
  | _ => none

def Token.isBreak (t : Token) : Bool := t == .mark ";" || t == .mark "\n"

/-- A setting of a variable in front of a simple command. -/
def setting? (w : Word) : Option (String × Word) :=
  match w with
  | .text cs false :: rest =>
    let name := cs.takeWhile isNameChar
    match cs.drop name.length with
    | '=' :: value =>
      if name.head?.any isNameStart then some (String.ofList name, .text value false :: rest)
      else none
    | _ => none
  | _ => none

/-- Words that end a list of commands. -/
def closers : List String := ["then", "else", "elif", "fi", "do", "done", "\x7d"]

/-- A simple command: settings, words and redirections, up to a mark. -/
def readSimple (settings : List (String × Word)) (words : List Word) (redirects : List Redirect) :
    List Token → Command × List Token
  | .word w :: rest =>
    match words, setting? w with
    | [], some s => readSimple (settings ++ [s]) [] redirects rest
    | _, _ => readSimple settings (words ++ [w]) redirects rest
  | .redirect r :: rest => readSimple settings words (redirects ++ [r]) rest
  | rest => (.simple settings words redirects, rest)

/-- Takes a certain word off the front. -/
def expect (word : String) : List Token → Option (List Token)
  | t :: rest => if t.bare? = some word then some rest else none
  | [] => none

def skipBreaks (ts : List Token) : List Token := ts.dropWhile Token.isBreak

/-- The redirections in front of the rest. -/
def takeRedirects : List Token → List Redirect × List Token
  | .redirect r :: rest => let (rs, rest) := takeRedirects rest; (r :: rs, rest)
  | rest => ([], rest)

/-- The words of a loop, up to the end of the line. -/
def takeWords : List Token → List Word × List Token
  | .word w :: rest => let (ws, rest) := takeWords rest; (w :: ws, rest)
  | rest => ([], rest)

mutual

/-- Commands one after the other, up to a closing word or mark. -/
def readList : (fuel : Nat) → List Token → Option (Command × List Token)
  | 0, _ => none
  | fuel + 1, ts =>
    match skipBreaks ts with
    | [] => some (.nothing, [])
    | t :: rest =>
      if t == .mark ")" || t.bare?.any closers.contains then some (.nothing, t :: rest)
      else
        match readConditions fuel (t :: rest) with
        | none => none
        | some (first, ts) =>
          match ts with
          | [] => some (first, [])
          | t :: rest =>
            if t.isBreak then
              (readList fuel rest).map fun (second, ts) => (.both first second, ts)
            else if t == .mark ")" then some (first, t :: rest)
            else none

/-- Pipelines joined by conditions, from left to right. -/
def readConditions : (fuel : Nat) → List Token → Option (Command × List Token)
  | 0, _ => none
  | fuel + 1, ts => (readPipe fuel ts).bind fun (first, ts) => readMore fuel first ts

def readMore : (fuel : Nat) → Command → List Token → Option (Command × List Token)
  | 0, _, _ => none
  | fuel + 1, first, .mark "&&" :: rest =>
    (readPipe fuel (skipBreaks rest)).bind fun (second, ts) =>
      readMore fuel (.ifDone first second) ts
  | fuel + 1, first, .mark "||" :: rest =>
    (readPipe fuel (skipBreaks rest)).bind fun (second, ts) =>
      readMore fuel (.ifFailed first second) ts
  | _, first, ts => some (first, ts)

def readPipe : (fuel : Nat) → List Token → Option (Command × List Token)
  | 0, _ => none
  | fuel + 1, ts =>
    match expect "!" ts with
    | some ts => (readPipe fuel ts).map fun (c, ts) => (.negated c, ts)
    | none =>
      match readOne fuel ts with
      | some (first, .mark "|" :: rest) =>
        (readPipe fuel (skipBreaks rest)).map fun (second, ts) => (.pipe first second, ts)
      | other => other

/-- One command, simple or not. -/
def readOne : (fuel : Nat) → List Token → Option (Command × List Token)
  | 0, _ => none
  | fuel + 1, ts =>
    match ts with
    | .mark "(" :: rest =>
      match readList fuel rest with
      | some (body, .mark ")" :: rest) =>
        let (redirects, rest) := takeRedirects rest
        some (.group true body redirects, rest)
      | _ => none
    | .word w :: rest =>
      match w.bare? with
      | some "\x7b" => do
        let (body, rest) ← readList fuel rest
        let (redirects, rest) := takeRedirects (← expect "\x7d" rest)
        return (.group false body redirects, rest)
      | some "if" => readChoice fuel rest
      | some "for" =>
        match rest with
        | .word name :: rest => do
          let (words, rest) := takeWords (← expect "in" rest)
          let (body, rest) ← readList fuel (← expect "do" (skipBreaks rest))
          return (.loop (← name.bare?) words body, ← expect "done" rest)
        | _ => none
      | _ => some (readSimple [] [] [] ts)
    | .redirect _ :: _ => some (readSimple [] [] [] ts)
    | _ => none

/-- What stands behind `if`. -/
def readChoice : (fuel : Nat) → List Token → Option (Command × List Token)
  | 0, _ => none
  | fuel + 1, ts => do
    let (condition, ts) ← readList fuel ts
    let (yes, ts) ← readList fuel (← expect "then" ts)
    match expect "elif" ts, expect "else" ts with
    | some ts, _ =>
      let (no, ts) ← readChoice fuel ts
      return (.choice condition yes no, ts)
    | none, some ts =>
      let (no, ts) ← readList fuel ts
      return (.choice condition yes no, ← expect "fi" ts)
    | none, none => return (.choice condition yes (.simple [] [] []), ← expect "fi" ts)

end

/-- The command that a script writes, none if it is malformed. -/
def readScript (script : String) : Option Command := do
  let cs := script.toList
  let ts ← tokens (cs.length + 1) cs
  match ← readList (8 * ts.length + 8) ts with
  | (command, []) => return command
  | _ => none

end Remedy.Shell

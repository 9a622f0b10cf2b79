import Remedy.Diagnostic
import Remedy.Text.Blank
import Remedy.Text.Search
import Remedy.World

/-!
Reading of diagnostics. A line is a diagnostic if it has the form

    path(line,column): error code: message

with a path of at least one character. Of several readings the one with the shortest path counts;
if that has line or column zero, or a path of white space only, the line is none. White space may
stand before the word `error` and around the message, and has to stand behind the word.

`Diagnostic.read` is the reading of a text, which also counts and logs the lines that are skipped.
-/

set_option autoImplicit false

namespace Remedy.Diagnostic

open Remedy.Text

/-- What stands behind the path of a diagnostic. -/
structure Tail where
  line : List Char
  column : List Char
  code : List Char
  message : List Char
  deriving DecidableEq, Repr

def isCodeChar (c : Char) : Bool :=
  ('0' ≤ c && c ≤ '9') || ('a' ≤ c && c ≤ 'z') || ('A' ≤ c && c ≤ 'Z')

/-- Takes a run of at least one character of a class off the front. -/
def run? (p : Char → Bool) (cs : List Char) : Option (List Char × List Char) :=
  let front := cs.takeWhile p
  if front.isEmpty then none else some (front, cs.dropWhile p)

/-- Takes a text off the front. -/
def drop? (pattern : String) (cs : List Char) : Option (List Char) :=
  if startsWith pattern.toList cs then some (cs.drop pattern.length) else none

/-- Reads what stands behind a path, the opening parenthesis first. -/
def readTail (cs : List Char) : Option Tail := do
  let cs ← drop? "(" cs
  let (line, cs) ← run? isDigit cs
  let cs ← drop? "," cs
  let (column, cs) ← run? isDigit cs
  let cs ← drop? "):" cs
  let cs ← drop? "error" (cs.dropWhile isBlank)
  let (_, cs) ← run? isBlank cs
  let (code, cs) ← run? isCodeChar cs
  let message ← drop? ":" cs
  if message.isEmpty then none else some ⟨line, column, code, message⟩

/-- The shortest path with a tail behind it; `path` holds what is passed over, last one first. -/
def splitPath (path : List Char) : List Char → Option (List Char × Tail)
  | [] => none
  | c :: rest =>
    match if path.isEmpty then none else readTail (c :: rest) with
    | some tail => some (path.reverse, tail)
    | none => splitPath (c :: path) rest

/-- The number that digits write, of which there may be only so many. -/
def position (digits : List Char) : Except Invalid Nat :=
  if Json.digitLimit < digits.length then .error (.longNumber digits.length)
  else .ok (numeral digits)

/-- Reads one line, without white space at its ends. -/
def ofLine (line : List Char) : Except Invalid (Option Diagnostic) :=
  match splitPath [] line with
  | none => .ok none
  | some (path, tail) => do
    let row ← position tail.line
    let column ← position tail.column
    let file := strip path
    if row = 0 ∨ column = 0 ∨ file.isEmpty then return none
    return some {
      file := String.ofList file
      line := row
      column := column
      code := String.ofList tail.code
      message := String.ofList (strip tail.message)
      raw := String.ofList line }

/-- What was read of a text: diagnostics and skipped lines in order, up to a line that could not be
read at all. -/
structure Reading where
  found : List Diagnostic := []
  skipped : List (List Char) := []
  refused : Option Invalid := none

/-- The lines of a text that are not blank, without the white space at their ends. -/
def content (text : List Char) : List (List Char) :=
  ((splitLines text).map strip).filter (!·.isEmpty)

def ofLines : List (List Char) → Reading
  | [] => {}
  | line :: rest =>
    match ofLine line with
    | .error refused => { refused := some refused }
    | .ok none =>
      let r := ofLines rest
      { r with skipped := line :: r.skipped }
    | .ok (some d) =>
      let r := ofLines rest
      { r with found := d :: r.found }

def ofText (text : String) : Reading := ofLines (content text.toList)

/-- Diagnostics as they come in. -/
inductive Source where
  | absent
  | text (s : String)
  | bytes (b : Bytes)
  | other (kind : String)
  deriving Repr

def logSkipped (count : Nat) : List (List Char) → Act Unit
  | [] => return ()
  | line :: rest => do
    Act.log .debug "diagnostic_line_skipped"
      [("line", String.ofList (line.take 200)), ("skipped_count", (count + 1 : Nat))]
    logSkipped (count + 1) rest

def sourceText : Source → Act String
  | .absent => return ""
  | .text s => return s
  | .bytes b => return decode b
  | .other kind => do
    Act.log .warning "diagnostic_input_unsupported" [("input_type", kind)]
    return ""

/-- Reads diagnostics, counting what was read and what was skipped. -/
def read (source : Source) : Act (List Diagnostic) := do
  let text ← sourceText source
  if text.isEmpty then return []
  let r := ofText text
  logSkipped 0 r.skipped
  match r.refused with
  | some cause => throw (.invalid cause)
  | none =>
    Act.count .diagnosticsParsed (.int r.found.length) []
    if r.skipped.isEmpty then return r.found
    Act.count .diagnosticsSkipped (.int r.skipped.length) []
    return r.found

end Remedy.Diagnostic
